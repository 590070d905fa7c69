import PageServer.Console
import PageServer.Gateway
import PageServer.Guestbook
import PageServer.Main
import PageServer.Probe
import PageServer.Scripted
import PageServer.Proofs.Addresses
import PageServer.Proofs.Click
import PageServer.Proofs.Pull
import PageServer.Proofs.Sender
import PageServer.Proofs.PageList
import PageServer.Proofs.Instances
import PageServer.Proofs.Mirrored
import PageServer.Proofs.Partial
import PageServer.Proofs.Answers
import PageServer.Proofs.CachedPages
import PageServer.Proofs.Expiry
import PageServer.Proofs.Links
import PageServer.Proofs.NewPages
import PageServer.Proofs.OnePage
import PageServer.Proofs.Strangers
import PageServer.Proofs.Sources
import PageServer.Proofs.Appended
import PageServer.Proofs.Reserialized
import PageServer.Proofs.Expressions
import PageServer.Proofs.Segments
import PageServer.Proofs.Nesting
import PageServer.Proofs.Checked
import PageServer.Proofs.Growth
import PageServer.Proofs.Sure
import PageServer.Proofs.WarmUp
import PageServer.Proofs.AddressGrammar
import PageServer.Proofs.NestedWrites
import PageServer.Proofs.Submission
import PageServer.Proofs.InlineTags
import PageServer.Proofs.Routes
import PageServer.Proofs.Refusals
import PageServer.Proofs.Reinlined
import PageServer.Proofs.AccessEntries
