import VmControl.Main
import VmControl.Redaction
import VmControl.Proofs.Draft.Line
import VmControl.Proofs.Password
import VmControl.Proofs.Redaction
import VmControl.Proofs.Secrecy
import VmControl.Proofs.Options.Pieces
import VmControl.Proofs.Options.Spelling
import VmControl.Proofs.Line.Spelling
import VmControl.Proofs.Draft.Selection
import VmControl.Proofs.Draft.Exclusion
import VmControl.Proofs.Draft.Device
import VmControl.Proofs.Draft.Shorthand
import VmControl.Proofs.Line.Rules
import VmControl.Proofs.Line.Continuation
import VmControl.Proofs.Line.LateLogin
import VmControl.Proofs.Line.Stray
import VmControl.Proofs.Safety
import VmControl.Proofs.Line.Handling
import VmControl.Proofs.Line.Serving
import VmControl.Proofs.Draft.Serving
import VmControl.Proofs.Line.Written
import VmControl.Proofs.Line.Frame
import VmControl.Proofs.Line.Handled
import VmControl.Proofs.Line.Steady
import VmControl.Proofs.Line.Verbs
import VmControl.Proofs.Session
import VmControl.Proofs.Preferences
import VmControl.Proofs.Dispatch
import VmControl.Proofs.LoginHistory
import VmControl.Proofs.Draft.Switch
import VmControl.Proofs.Options.Values
import VmControl.Proofs.Line.Displacement
import VmControl.Proofs.Draft.Mention
import VmControl.Proofs.Draft.Mirror
import VmControl.Proofs.Options.Duplicates
import VmControl.Proofs.Line.PositionalLogin
import VmControl.Proofs.Rejection
import VmControl.Proofs.Login.Colon
import VmControl.Proofs.Line.RestoreTarget
import VmControl.Proofs.Line.GuestCommand
import VmControl.Proofs.Features
import VmControl.Proofs.Record.Paths
import VmControl.Proofs.Line.Paths
import VmControl.Proofs.Line.EarlyExit
import VmControl.Proofs.Line.Fault
import VmControl.Proofs.Capability
import VmControl.Proofs.Entries
import VmControl.Proofs.Address.PrefixLength
import VmControl.Proofs.Address.NormalForm
import VmControl.Proofs.Address.Mac
import VmControl.Proofs.Limit
import VmControl.Proofs.Preferences.Number
import VmControl.Proofs.Address.Uuid
import VmControl.Proofs.Redaction.Confluence
import VmControl.Proofs.Text.Words
