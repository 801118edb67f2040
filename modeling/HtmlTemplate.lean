import HtmlTemplate.Bundle.Call
import HtmlTemplate.Bundle.Loading
import HtmlTemplate.Main
import HtmlTemplate.Proofs.Scope.Inference
import HtmlTemplate.Proofs.Template.Runnable
import HtmlTemplate.Proofs.Template.Callable
import HtmlTemplate.Proofs.Template.Acceptance
import HtmlTemplate.Proofs.Text.Key
import HtmlTemplate.Proofs.Shape.Named
import HtmlTemplate.Proofs.Template.Recording
import HtmlTemplate.Proofs.Template.Coverage
import HtmlTemplate.Proofs.Template.Admission
import HtmlTemplate.Proofs.Template.Inversion
import HtmlTemplate.Proofs.Scan.Grammar
import HtmlTemplate.Proofs.Scan.Expression
import HtmlTemplate.Proofs.Template.Totality
import HtmlTemplate.Proofs.Render.Relates
import HtmlTemplate.Proofs.Value.Resemblance
import HtmlTemplate.Proofs.Template.Privacy
import HtmlTemplate.Proofs.Template.Substituted
import HtmlTemplate.Proofs.Template.Place
import HtmlTemplate.Proofs.Template.Renaming
import HtmlTemplate.Proofs.Template.Unrolling
import HtmlTemplate.Proofs.Tag.Form
import HtmlTemplate.Proofs.Scan.Directives
import HtmlTemplate.Proofs.Scan.Rounds
import HtmlTemplate.Proofs.Template.Refusal
import HtmlTemplate.Proofs.Bundle.Enclosed
import HtmlTemplate.Proofs.Bundle.Loading
import HtmlTemplate.Proofs.Scan.Unclosed
import HtmlTemplate.Proofs.Bundle.Docstring
import HtmlTemplate.Proofs.Template.ValuePlace
import HtmlTemplate.Proofs.Scan.Rewritten
import HtmlTemplate.Proofs.Scan.Cutting
import HtmlTemplate.Proofs.Scan.Outcome
import HtmlTemplate.Proofs.Scan.Inline
import HtmlTemplate.Proofs.Template.PlainAttribute
import HtmlTemplate.Proofs.Scope.Refusal
import HtmlTemplate.Proofs.Template.Hygiene
import HtmlTemplate.Proofs.Scan.Culprit
import HtmlTemplate.Proofs.Template.Bracketing
import HtmlTemplate.Proofs.Template.Literals
import HtmlTemplate.Proofs.Template.Coalesced
import HtmlTemplate.Proofs.Shape.Parsing
import HtmlTemplate.Proofs.Tag.Registration
import HtmlTemplate.Proofs.Render.Escaping
import HtmlTemplate.Proofs.Template.Emptiness
import HtmlTemplate.Proofs.Section
import HtmlTemplate.Proofs.Scope.Acyclic
