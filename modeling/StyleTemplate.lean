import StyleTemplate.File.Tree
import StyleTemplate.Main
import StyleTemplate.Substitution.StyleBlock
import StyleTemplate.Proofs.Token.Grammar
import StyleTemplate.Proofs.Token.Reading
import StyleTemplate.Proofs.Token.Layout
import StyleTemplate.Proofs.Token.Locality
import StyleTemplate.Proofs.Token.Quotation
import StyleTemplate.Proofs.Token.ClosingQuote
import StyleTemplate.Proofs.Token.Backtracking
import StyleTemplate.Proofs.Token.Malformed
import StyleTemplate.Proofs.Token.Iteration
import StyleTemplate.Proofs.Token.Progress
import StyleTemplate.Proofs.Token.Renaming
import StyleTemplate.Proofs.Text.Location
import StyleTemplate.Proofs.Token.ErrorReport
import StyleTemplate.Proofs.Value.Renderable
import StyleTemplate.Proofs.Value.Flattening
import StyleTemplate.Proofs.Value.Equality
import StyleTemplate.Proofs.Value.Overwriting
import StyleTemplate.Proofs.Value.DistinctKeys
import StyleTemplate.Proofs.Number.FloatText
import StyleTemplate.Proofs.Source.Lookup
import StyleTemplate.Proofs.Substitution.Splicing
import StyleTemplate.Proofs.Substitution.Chaining
import StyleTemplate.Proofs.Substitution.Doubling
import StyleTemplate.Proofs.Substitution.Rescanning
import StyleTemplate.Proofs.Substitution.EscapedName
import StyleTemplate.Proofs.Substitution.ErrorPolicy
import StyleTemplate.Proofs.Substitution.Lockstep
import StyleTemplate.Proofs.Substitution.Passes
import StyleTemplate.Proofs.Substitution.Reporting
import StyleTemplate.Proofs.Substitution.Calling
import StyleTemplate.Proofs.Text.Zipper
import StyleTemplate.Proofs.Text.CompositionTable
import StyleTemplate.Proofs.Text.NormalForm
import StyleTemplate.Proofs.Substitution.ErrorLocation
import StyleTemplate.Proofs.Substitution.Endings
import StyleTemplate.Proofs.Substitution.EntryPoints
import StyleTemplate.Proofs.Source.Documents
import StyleTemplate.Proofs.Toml.DistinctKeys
import StyleTemplate.Proofs.CommandLine.Loading
import StyleTemplate.Proofs.CommandLine.Outcome
