import Template.Main
import Template.Proofs.SentinelStream
import Template.Proofs.Declarations
import Template.Proofs.Rejecting
import Template.Proofs.Bracketing
import Template.Proofs.Replacement.Frame
import Template.Proofs.Intermediate
import Template.Proofs.Node.Parsing
import Template.Proofs.Fragment.Grammar
import Template.Proofs.Siblings
import Template.Proofs.SilentComments
import Template.Proofs.Delivery
import Template.Proofs.Segment.Segmentation
import Template.Proofs.Segment.Guarding
import Template.Proofs.Segment.Shape
import Template.Proofs.Extraction
import Template.Proofs.Fragment.Splitting
import Template.Proofs.Literal.Quoting
import Template.Proofs.Concatenation.Reading
import Template.Proofs.Attribute.Entries
import Template.Proofs.Fragment.Elements
import Template.Proofs.Attribute.ClassName
import Template.Proofs.Attribute.Order
import Template.Proofs.VisibleComments
import Template.Proofs.Double.Nearest
import Template.Proofs.Double.Shortest
import Template.Proofs.Double.Text
import Template.Proofs.ClassList
import Template.Proofs.Literal.Recognition
import Template.Proofs.Layout.Depth
import Template.Proofs.Layout.Indentation
import Template.Proofs.Layout.Branches
import Template.Proofs.Layout.Loops
import Template.Proofs.Literal.WrittenNumbers
import Template.Proofs.Fragment.Unfinished
import Template.Proofs.Literal.Tokens
import Template.Proofs.Attribute.NullValues
import Template.Proofs.Attribute.ClassLiterals
import Template.Proofs.Slicing
