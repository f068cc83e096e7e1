import SwitchShell.Editor.Console
import SwitchShell.Main
import SwitchShell.Proofs.Command.Columns
import SwitchShell.Proofs.Command.Onward
import SwitchShell.Proofs.Completion.Accepted
import SwitchShell.Proofs.Completion.Executable
import SwitchShell.Proofs.Completion.Offered
import SwitchShell.Proofs.Editor.Keys
import SwitchShell.Proofs.Editor.Tab
import SwitchShell.Proofs.Grammar.Choosing
import SwitchShell.Proofs.Grammar.Unordered
import SwitchShell.Proofs.Script
import SwitchShell.Proofs.Session.Bookkeeping
import SwitchShell.Proofs.Session.Clearing
import SwitchShell.Proofs.Session.Directions
import SwitchShell.Proofs.Session.Failure
import SwitchShell.Proofs.Session.Indexed
import SwitchShell.Proofs.Session.Modes
import SwitchShell.Proofs.Session.Restoration
import SwitchShell.Proofs.Session.Serializable
import SwitchShell.Proofs.Session.Settings
import SwitchShell.Proofs.Wire.Address
import SwitchShell.Proofs.Wire.Requests
import SwitchShell.Proofs.Wire.Results
import SwitchShell.Store.Journal
