import Fota.Modem.Report

/-
  This file defines the mailbox between the receiver of notices
  and the parts that act on them. It holds the latest notice of
  each kind.

  Key definitions include:
    * `Mailbox`
    * `Mailbox.deliver`
    * `Mailbox.deliverAll`
    * `Mailbox.takeCompletion`
    * `Mailbox.takeDeactivation`
-/

namespace Fota

------------------------------------------------------------
-- Mailbox
------------------------------------------------------------

/-
  A mailbox holds the last completed transfer, the last
  deactivated context and the last install progress.
-/
structure Mailbox where
  completion : Option Completion
  deactivation : Option UInt8
  progress : Option UInt8
deriving DecidableEq, Repr

namespace Mailbox

/- A mailbox without notices. -/
def empty : Mailbox where
  completion := none
  deactivation := none
  progress := none

------------------------------------------------------------
-- Delivery
------------------------------------------------------------

/- The progress value that stands for no progress. -/
def noProgress : UInt8 :=
  255

/- The install progress that a reported value stands for. -/
def shownProgress
    (value : UInt8) : Option UInt8 :=
  if value = noProgress then none else some value

/- Keep a completed transfer, when the line reports one. -/
def putCompletion
    (line : String)
    (m : Mailbox) : Mailbox :=
  match Report.completion? line with
  | some completion =>
      { m with completion := some completion }
  | none => m

/- Keep a deactivated context, when the line reports one. -/
def putDeactivation
    (line : String)
    (m : Mailbox) : Mailbox :=
  match Report.deactivation? line with
  | some context =>
      { m with deactivation := some context }
  | none => m

/- Keep the install progress, when the line reports one. -/
def putProgress
    (line : String)
    (m : Mailbox) : Mailbox :=
  match Report.progress? line with
  | some value =>
      { m with progress := shownProgress value }
  | none => m

/-
  Hand a line over. Only notices are taken; a notice that is not
  well formed is taken without effect.
-/
def deliver
    (line : String)
    (m : Mailbox) : Bool × Mailbox :=
  if Text.leads Report.completionLead line.toList then
    (true, m.putCompletion line)
  else if Text.leads Report.contextLead line.toList then
    (true, m.putDeactivation line)
  else if Text.leads Report.progressLead line.toList then
    (true, m.putProgress line)
  else
    (false, m)

/- Hand several lines over, in order. -/
def deliverAll
    (lines : List String)
    (m : Mailbox) : Mailbox :=
  lines.foldl (fun m line => (m.deliver line).2) m

/- A line is taken exactly when it is a notice. -/
theorem deliver_fst
    (line : String)
    (m : Mailbox) :
    (m.deliver line).1 = Report.isNotice line := by
  unfold deliver Report.isNotice
  split
  · simp [*]
  · split
    · simp [*]
    · split <;> simp [*]

------------------------------------------------------------
-- Collection
------------------------------------------------------------

/- Take the last completed transfer out. -/
def takeCompletion
    (m : Mailbox) : Option Completion × Mailbox :=
  (m.completion, { m with completion := none })

/- Forget the last completed transfer. -/
def clearCompletion
    (m : Mailbox) : Mailbox :=
  { m with completion := none }

/- Take the last deactivated context out. -/
def takeDeactivation
    (m : Mailbox) : Option UInt8 × Mailbox :=
  (m.deactivation, { m with deactivation := none })

/- Forget the install progress. -/
def clearProgress
    (m : Mailbox) : Mailbox :=
  { m with progress := none }

end Mailbox

end Fota
