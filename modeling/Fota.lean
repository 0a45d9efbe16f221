import Fota.Bench.Radio
import Fota.Bench.Rig
import Fota.Interfaces.Manager
import Fota.Proofs.Dialogue.Courses
import Fota.Proofs.Dialogue.Transcripts
import Fota.Proofs.Update.Life
import Fota.Proofs.Update.Questions
import Fota.Proofs.Update.Edges
import Fota.Proofs.Update.Calls
import Fota.Proofs.Update.Turns
import Fota.Proofs.Update.Frames
import Fota.Proofs.Bytes.Detection
import Fota.Proofs.Storage.Slots
import Fota.Proofs.Update.Record
import Fota.Proofs.Update.Consistency
import Fota.Proofs.Update.VerifiedInstall
import Fota.Proofs.Update.SafeMode
import Fota.Proofs.Board.Serving
import Fota.Proofs.Update.ModemOwnership
import Fota.Proofs.Update.Rehearsal
import Fota.Proofs.Update.Replays
import Fota.Proofs.Update.LinkRelease
import Fota.Proofs.Update.EarnedSuccess
import Fota.Proofs.Update.Retries
import Fota.Proofs.Update.RetryLimits
import Fota.Proofs.Update.Attempts
import Fota.Proofs.Update.AttemptLimits
import Fota.Proofs.Update.ForwardWalk
import Fota.Proofs.Update.StageTimeouts
import Fota.Proofs.Update.ReliableStarts
import Fota.Proofs.Update.StatusReport
import Fota.Proofs.Board.Recall
import Fota.Proofs.Modem.Lines
import Fota.Proofs.Modem.Readings
import Fota.Proofs.Modem.Taps
import Fota.Proofs.Modem.Wires
import Fota.Proofs.Modem.Exchanges
import Fota.Proofs.Modem.Notices
import Fota.Proofs.Link.Moves
import Fota.Proofs.Link.Supervision
import Fota.Proofs.Link.Guards
import Fota.Proofs.Link.TruthfulStatus
import Fota.Proofs.Interfaces.Histories
import Fota.Proofs.Interfaces.Levels
import Fota.Proofs.Interfaces.Backing
import Fota.Proofs.Interfaces.Losses
import Fota.Proofs.Interfaces.Steering
import Fota.Proofs.Link.Signals
import Fota.Proofs.Link.Announcements
import Fota.Proofs.Board.Driving
import Fota.Proofs.Board.Sessions
import Fota.Proofs.Storage.Requests
import Fota.Proofs.Board.Channel
import Fota.Proofs.Update.LostData
import Fota.Proofs.Update.OwnPath
import Fota.Proofs.Update.PathChoice
import Fota.Proofs.Update.Polling
import Fota.Proofs.Update.Admission
import Fota.Proofs.Modem.CommandLines
import Fota.Proofs.Modem.Listings
import Fota.Proofs.Link.Pursuit
import Fota.Proofs.Link.LastRequest
import Fota.Proofs.Modem.LatestNotices
import Fota.Proofs.Interfaces.Refusals
import Fota.Proofs.Update.Cooldowns
import Fota.Proofs.Text.Numerals
import Fota.Proofs.Text.Words
import Fota.Proofs.Text.Parts
import Fota.Proofs.Modem.Versions
import Fota.Proofs.Modem.Reports
import Fota.Proofs.Update.RecordFormat
import Fota.Proofs.Modem.Returns
