import ApiReference.Main
import ApiReference.Proofs.Output.Markup
import ApiReference.Proofs.Tree.Respelling
import ApiReference.Proofs.Tree.RoundTrip
import ApiReference.Proofs.Json.Lexing
import ApiReference.Proofs.Json.Recognizing
import ApiReference.Proofs.Tree.Accepting
import ApiReference.Proofs.Keyed
import ApiReference.Proofs.Tree.Merging
import ApiReference.Proofs.File.Changing
import ApiReference.Proofs.Command.Running
import ApiReference.Proofs.Json.Indented
import ApiReference.Proofs.Json.Ordered
import ApiReference.Proofs.Output.Record
import ApiReference.Proofs.Output.Links
import ApiReference.Proofs.Tree.Extending
import ApiReference.Proofs.Tree.Regrouping
import ApiReference.Proofs.Docs.Unseen
import ApiReference.Proofs.Output.Escaping
import ApiReference.Proofs.Output.Shown
import ApiReference.Proofs.Tree.Decoded
import ApiReference.Proofs.Tree.Gathering
import ApiReference.Proofs.Command.Expanding
import ApiReference.Proofs.File.Spelling
import ApiReference.Proofs.Tree.Loading
import ApiReference.Proofs.Command.Failing
import ApiReference.Proofs.Command.Repeats
import ApiReference.Proofs.Command.Enumerating
import ApiReference.Proofs.Command.Distinct
import ApiReference.Proofs.File.Repeating
import ApiReference.Proofs.Command.Rerunning
import ApiReference.Proofs.Json.Canonical
import ApiReference.Proofs.Json.Sameness
import ApiReference.Proofs.Tree.Literals
import ApiReference.Proofs.Output.Lines
import ApiReference.Proofs.Output.Outline
import ApiReference.Proofs.Output.Printed
import ApiReference.Proofs.Docs.Accounting
import ApiReference.Proofs.Tree.Comparing
import ApiReference.Proofs.Docs.Finding
import ApiReference.Proofs.Output.Anchors
import ApiReference.Proofs.Output.Unescaping
