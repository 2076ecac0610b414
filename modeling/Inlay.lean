import Inlay.Capture
import Inlay.Scene.RunTasks
import Inlay.Scene.Spin
import Inlay.Proofs.Decoding
import Inlay.Proofs.Threads.Focus
import Inlay.Proofs.Threads.Alone
import Inlay.Proofs.Scene.Widgets
import Inlay.Proofs.Scene.Asking
import Inlay.Proofs.Screen.Fidelity
import Inlay.Proofs.Keyboard.Arrival
import Inlay.Proofs.Keyboard.Endings
import Inlay.Proofs.Keyboard.Abreast
import Inlay.Proofs.Keyboard.Events
import Inlay.Proofs.Scene.Reliable
import Inlay.Proofs.Tasks.Records
import Inlay.Proofs.Tasks.Crew
import Inlay.Proofs.Tasks.Ledger
import Inlay.Proofs.Tasks.Accounts
import Inlay.Proofs.Tasks.Order
import Inlay.Proofs.Tasks.Progress
import Inlay.Proofs.Tasks.Outcome
import Inlay.Proofs.Tasks.Schedules
import Inlay.Proofs.Tasks.Runs
import Inlay.Proofs.Prompts.Following
import Inlay.Proofs.Prompts.Picture
import Inlay.Proofs.Prompts.Sharing
import Inlay.Proofs.Prompts.Asked
import Inlay.Proofs.Prompts.Phases
import Inlay.Proofs.Prompts.Exhibited
import Inlay.Proofs.Prompts.LastFrame
import Inlay.Proofs.Prompts.Offered
import Inlay.Proofs.Prompts.Reasked
import Inlay.Proofs.Prompts.Secrecy
import Inlay.Proofs.Scene.Guards
import Inlay.Proofs.Scene.Calls
import Inlay.Proofs.Log.Reference
import Inlay.Proofs.Log.Session
import Inlay.Proofs.Screen.Interrupted
import Inlay.Proofs.Screen.Faults
import Inlay.Proofs.Screen.Tally
import Inlay.Proofs.Prompts.Returning
import Inlay.Proofs.Scene.Idle
import Inlay.Proofs.Scene.InSight
import Inlay.Proofs.Scene.Repeated
import Inlay.Proofs.Keyboard.Garbled
import Inlay.Proofs.Keyboard.Enough
import Inlay.Proofs.Prompts.Calm
import Inlay.Proofs.Prompts.Undisturbed
import Inlay.Proofs.Prompts.Matching
import Inlay.Proofs.Prompts.Submitting
import Inlay.Proofs.Prompts.Attended
import Inlay.Proofs.Prompts.Accepting
import Inlay.Proofs.Prompts.Picking
import Inlay.Proofs.Prompts.Checking
import Inlay.Proofs.Prompts.Steadfast
import Inlay.Proofs.Prompts.Narrowing
import Inlay.Proofs.Prompts.Windowing
import Inlay.Proofs.Prompts.Containing
import Inlay.Proofs.Deadlines
import Inlay.Proofs.Scene.Erasing
import Inlay.Proofs.Text.Scanning
import Inlay.Proofs.Sink.Dialogue
import Inlay.Proofs.Tasks.Closing
import Inlay.Proofs.Threads.Stopped
import Inlay.Proofs.Duration.Spelling
import Inlay.Proofs.Token.Families
import Inlay.Proofs.Scene.Membership
