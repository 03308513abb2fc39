import LoxLang.Foreign
import LoxLang.Main
import LoxLang.Runner
import LoxLang.Proofs.Derivation
import LoxLang.Proofs.DescentGrammar
import LoxLang.Proofs.Passes
import LoxLang.Proofs.Productions
import LoxLang.Proofs.StackGrammar
import LoxLang.Proofs.StreamTokens
import LoxLang.Proofs.FrontEndAgreement
import LoxLang.Proofs.FirstFault
import LoxLang.Proofs.Kinds
import LoxLang.Proofs.Lexemes
import LoxLang.Proofs.Statements
import LoxLang.Proofs.Execution
import LoxLang.Proofs.Failures
import LoxLang.Proofs.Lines
import LoxLang.Proofs.Layout
import LoxLang.Proofs.Sessions
import LoxLang.Proofs.Newlines
import LoxLang.Proofs.Reports
import LoxLang.Proofs.PostOrder
import LoxLang.Proofs.Conversations
import LoxLang.Proofs.Debugging
import LoxLang.Proofs.Rounding
import LoxLang.Proofs.Floats
import LoxLang.Proofs.NumberText
import LoxLang.Proofs.FileText
import LoxLang.Proofs.JsonScalars
import LoxLang.Proofs.JsonText
import LoxLang.Proofs.TreeCodec
import LoxLang.Proofs.DecodedTrees
import LoxLang.Proofs.SavedPrograms
import LoxLang.Proofs.DecodingFaults
import LoxLang.Proofs.RunFaults
import LoxLang.Proofs.TreeFiles
import LoxLang.Proofs.PrintedLiterals
import LoxLang.Proofs.PrintedForm
import LoxLang.Proofs.Printing
