import HttpService.Call.Target
import HttpService.Main
import HttpService.Proofs.Argument.Narrowing
import HttpService.Proofs.Body.Copying
import HttpService.Proofs.Body.Drawing
import HttpService.Proofs.Body.Length
import HttpService.Proofs.Body.Overflow
import HttpService.Proofs.Call.Confinement
import HttpService.Proofs.Call.ContentHeaders
import HttpService.Proofs.Call.Defaults
import HttpService.Proofs.Call.Delivery
import HttpService.Proofs.Call.Discharge
import HttpService.Proofs.Call.HeadSafety
import HttpService.Proofs.Call.Isolation
import HttpService.Proofs.Call.LiteralUrls
import HttpService.Proofs.Call.Queries
import HttpService.Proofs.Call.Sending
import HttpService.Proofs.Call.SingleValues
import HttpService.Proofs.Call.Traversals
import HttpService.Proofs.Call.Unpacking
import HttpService.Proofs.Call.Visibility
import HttpService.Proofs.Lexical.Flaws
import HttpService.Proofs.Template.Substitution
import HttpService.Proofs.Template.TwoPasses
import HttpService.Proofs.Validation.Analysis
import HttpService.Proofs.Validation.Masking
import HttpService.Proofs.Validation.PlaceholderReports
import HttpService.Proofs.Validation.Reports
import HttpService.Proofs.Validation.ReturnShapes
import HttpService.Proofs.Validation.Storage
import HttpService.Proofs.Validation.WellFormed
