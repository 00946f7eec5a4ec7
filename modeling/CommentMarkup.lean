import CommentMarkup.Main
import CommentMarkup.Proofs.Path.NormalForm
import CommentMarkup.Proofs.Resolution
import CommentMarkup.Proofs.Nesting
import CommentMarkup.Proofs.Ancestry
import CommentMarkup.Proofs.Location
import CommentMarkup.Proofs.Scoping
import CommentMarkup.Proofs.Partition
import CommentMarkup.Proofs.Output
import CommentMarkup.Proofs.Seam
import CommentMarkup.Proofs.FewerAncestors
import CommentMarkup.Proofs.Influence
import CommentMarkup.Proofs.CurrentDirectory
import CommentMarkup.Proofs.DefinitionLine
import CommentMarkup.Proofs.SpecList
import CommentMarkup.Proofs.WrittenDirective
import CommentMarkup.Proofs.IncludeList
import CommentMarkup.Proofs.StoreAccess
import CommentMarkup.Proofs.InitialVariables
import CommentMarkup.Proofs.Path.Parts
import CommentMarkup.Proofs.TreeChange
import CommentMarkup.Proofs.BuildResult
import CommentMarkup.Proofs.Unclosed
import CommentMarkup.Proofs.VariableDirective
import CommentMarkup.Proofs.DefinedValue
import CommentMarkup.Proofs.KeptFiles
import CommentMarkup.Proofs.Path.Inside
import CommentMarkup.Proofs.OutputPlace
import CommentMarkup.Proofs.CandidateSearch
import CommentMarkup.Proofs.RootDirectory
import CommentMarkup.Proofs.TemplateNames
import CommentMarkup.Proofs.Sigils
import CommentMarkup.Proofs.CauseChain
import CommentMarkup.Proofs.Utf8
import CommentMarkup.Proofs.IncludedText
import CommentMarkup.Proofs.Base64Form
import CommentMarkup.Proofs.Coordinates
import CommentMarkup.Proofs.VariableForm
import CommentMarkup.Proofs.ShownPaths
import CommentMarkup.Proofs.Verbosity
import CommentMarkup.Proofs.LogNesting
