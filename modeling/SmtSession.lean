import SmtSession.Proofs.Session.Conduct
import SmtSession.Build
import SmtSession.Main
import SmtSession.Transport.Scripted
import SmtSession.Proofs.Session.Atomicity
import SmtSession.Proofs.Engine.Wire
import SmtSession.Proofs.Session.AssertionStack
import SmtSession.Proofs.Dialect.Desugaring
import SmtSession.Proofs.Dialect.Rendering
import SmtSession.Proofs.Dialect.Meaning
import SmtSession.Proofs.Reader.Layout
import SmtSession.Proofs.Reader.Spelling
import SmtSession.Proofs.Reader.Reads
import SmtSession.Proofs.Reader.Sorts
import SmtSession.Proofs.Reader.Commands
import SmtSession.Proofs.Reader.Shapes
import SmtSession.Proofs.Reader.RoundTrip
import SmtSession.Proofs.Session.Account
import SmtSession.Proofs.Session.Scopes
import SmtSession.Proofs.Session.LastVerdict
import SmtSession.Proofs.Dialect.Framing
import SmtSession.Proofs.Session.Framing
import SmtSession.Proofs.Channel.Pieces
import SmtSession.Proofs.Conversation.Listening
import SmtSession.Proofs.Session.Lifecycle
import SmtSession.Proofs.Conversation.Lifecycle
import SmtSession.Proofs.Session.Scripts
import SmtSession.Proofs.Engine.Dialogue
import SmtSession.Proofs.Conversation.Pairing
import SmtSession.Proofs.Reader.TakenTerms
import SmtSession.Proofs.Reader.Whole
import SmtSession.Proofs.Session.Settings
import SmtSession.Proofs.Session.FixedLogic
import SmtSession.Proofs.Session.Options
import SmtSession.Proofs.Session.Answers
import SmtSession.Proofs.Session.Interference
import SmtSession.Token.Stream
import SmtSession.Proofs.Reader.Nodes
import SmtSession.Proofs.Reader.Ranges
import SmtSession.Proofs.Reader.InStep
import SmtSession.Proofs.Dialect.NormalForm
import SmtSession.Proofs.Dialect.Positions
import SmtSession.Proofs.Dialect.ReadBack
import SmtSession.Proofs.Reader.Blind
import SmtSession.Proofs.Reader.Joined
import SmtSession.Proofs.Session.Positions
import SmtSession.Proofs.Session.Composition
import SmtSession.Proofs.Dialect.Fragment
import SmtSession.Proofs.Reader.Relocated
import SmtSession.Proofs.Reader.Moved
import SmtSession.Proofs.Reader.Concatenation
import SmtSession.Proofs.Reader.Grammar
import SmtSession.Proofs.Reader.Blame
import SmtSession.Proofs.Reader.Pointing
import SmtSession.Reader.Supply
import SmtSession.Proofs.Reader.Progress
import SmtSession.Proofs.Dialect.QuotedStrings
import SmtSession.Proofs.Session.Printing
import SmtSession.Proofs.Dialect.PrintedValues
import SmtSession.Proofs.Session.KeptValues
import SmtSession.Proofs.Source.Marker
import SmtSession.Proofs.Session.NumeralOptions
import SmtSession.Proofs.Reader.Parameters
