import LuneSyntax.Text.Numeral
import LuneSyntax.Text.Blank
import LuneSyntax.Text.Printable
import LuneSyntax.Text.Quoted
import LuneSyntax.Text.AsciiLiteral
import LuneSyntax.Text.LineBreak
import LuneSyntax.Text.ControlSequence
import LuneSyntax.Text.Utf8
import LuneSyntax.Token.Kind
import LuneSyntax.Token.Spelling
import LuneSyntax.Token.Basic
import LuneSyntax.Token.Stream
import LuneSyntax.Source.Place
import LuneSyntax.Diagnostic.Fault
import LuneSyntax.Diagnostic.Basic
import LuneSyntax.Lexeme.Basic
import LuneSyntax.Lexeme.Word
import LuneSyntax.Lexeme.Number
import LuneSyntax.Lexeme.StringLiteral
import LuneSyntax.Lexeme.Read
import LuneSyntax.Lexeme.Sequence
import LuneSyntax.Lexeme.Tiling
import LuneSyntax.Tree.Basic
import LuneSyntax.Tree.Display
import LuneSyntax.Tree.SExpression
import LuneSyntax.Tree.Traversal
import LuneSyntax.Grammar.Precedence
import LuneSyntax.Grammar.Phrase
import LuneSyntax.Grammar.Expression
import LuneSyntax.Grammar.Statement
import LuneSyntax.Grammar.Program
import LuneSyntax.Grammar.Cursor
import LuneSyntax.Source.Scanner
import LuneSyntax.Text.Path
import LuneSyntax.Analysis.FileTree
import LuneSyntax.Analysis.Event
import LuneSyntax.Analysis.Basic
import LuneSyntax.Command.Arguments
import LuneSyntax.Command.Outcome
import LuneSyntax.Command.Run
import LuneSyntax.Main
import LuneSyntax.Proofs.Grammar.Yield
import LuneSyntax.Proofs.Grammar.Expression
import LuneSyntax.Proofs.Grammar.Statement
import LuneSyntax.Proofs.Grammar.Program
import LuneSyntax.Proofs.Grammar.CorrectPrefix
import LuneSyntax.Proofs.Grammar.Concatenation
import LuneSyntax.Proofs.Lexeme.Quotation
import LuneSyntax.Proofs.Lexeme.Shape
import LuneSyntax.Proofs.Lexeme.Reading
import LuneSyntax.Proofs.Lexeme.LongestMatch
import LuneSyntax.Proofs.Lexeme.Recognition
import LuneSyntax.Proofs.Lexeme.Exchange
import LuneSyntax.Proofs.Analysis.LayoutFreedom
import LuneSyntax.Proofs.Analysis.Located
import LuneSyntax.Proofs.Analysis.Blanked
import LuneSyntax.Proofs.Lexeme.Spelling
import LuneSyntax.Proofs.Text.AsciiLiteral
import LuneSyntax.Proofs.Tree.SExpression
import LuneSyntax.Proofs.Source.Session
import LuneSyntax.Proofs.Grammar.Session
import LuneSyntax.Proofs.Diagnostic.Lines
import LuneSyntax.Proofs.Command.Run
import LuneSyntax.Proofs.Lexeme.Emission
import LuneSyntax.Proofs.Lexeme.StringValue
import LuneSyntax.Proofs.Lexeme.IntegerValue
import LuneSyntax.Proofs.Analysis.LineNumbers
import LuneSyntax.Proofs.Analysis.Written
import LuneSyntax.Proofs.Source.FailedScan
import LuneSyntax.Proofs.Analysis.Reparsing
import LuneSyntax.Proofs.Tree.RenderedString
import LuneSyntax.Proofs.Lexeme.WideLineEnds
import LuneSyntax.Proofs.Source.WideLineEnds
import LuneSyntax.Proofs.Analysis.SourceFile
import LuneSyntax.Proofs.Grammar.Kinds
import LuneSyntax.Proofs.Grammar.MaximalPhrase
import LuneSyntax.Proofs.Tree.Traversal
