import Bulletin.Main
import Bulletin.Session
import Bulletin.Proofs.Card.Break
import Bulletin.Proofs.Card.Fallback
import Bulletin.Proofs.Card.Code
import Bulletin.Proofs.Card.Group
import Bulletin.Proofs.Card.Invariant
import Bulletin.Proofs.Card.Conservation
import Bulletin.Proofs.Card.Chunk
import Bulletin.Proofs.Card.Closing
import Bulletin.Proofs.Card.Compose
import Bulletin.Proofs.Card.RoundTrip
import Bulletin.Proofs.Card.Run
import Bulletin.Proofs.Emphasis
import Bulletin.Proofs.Pairing
import Bulletin.Proofs.Emphasis.Leftover
import Bulletin.Proofs.Emphasis.Restore
import Bulletin.Proofs.Html.Marked
import Bulletin.Proofs.Card.Origin
import Bulletin.Proofs.Block
import Bulletin.Proofs.Html.Frame
import Bulletin.Proofs.Html.Body
import Bulletin.Proofs.Html.Line
import Bulletin.Proofs.Html.Tag
import Bulletin.Proofs.Html.Nesting
import Bulletin.Proofs.Html.Document
import Bulletin.Proofs.Session
import Bulletin.Proofs.Command.Arguments
import Bulletin.Proofs.Command.Preview
import Bulletin.Proofs.Message.Fallback
import Bulletin.Proofs.Emphasis.Overlap
import Bulletin.Proofs.Block.Printer
import Bulletin.Proofs.Html.Quote
import Bulletin.Proofs.Html.Title
import Bulletin.Proofs.Html.LineEnding
import Bulletin.Proofs.Yaml.Text
import Bulletin.Proofs.Message.Outcome
import Bulletin.Proofs.Message.Written
import Bulletin.Proofs.Command.Binding
import Bulletin.Proofs.Command.Description
