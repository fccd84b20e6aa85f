import SliceRecords.Code.Block
import SliceRecords.Code.Literal

/-!
# Declarations

Types and methods around blocks of code, with documentation comments and attributes in front.
-/

namespace SliceRecords.Code

/-- A tag of a documentation comment, with an attribute if it has a name. -/
structure CommentTag where
  tag : String
  content : String := ""
  attributeName : Option String := none
  attributeValue : Option String := none
  deriving DecidableEq, Repr

namespace CommentTag

/-- The attribute of a tag as it follows the tag's name. -/
def attributeText (comment : CommentTag) : String :=
  match comment.attributeName with
  | none => ""
  | some name => if name.isEmpty then ""
    else s!" {name}=\"{comment.attributeValue.getD Json.nullWord}\""

/-- A line of the content of a tag. -/
def contentLine (line : String) : String :=
  Text.trimEnd Text.isBlank ("/// " ++ line)

/-- The comment lines of a tag: one line if its content is one, else a line each for the two ends of
the tag and for every line of the content. -/
def text (comment : CommentTag) : String :=
  let opening := comment.tag ++ comment.attributeText
  let content := Text.trim Text.isBlank comment.content
  if content.isEmpty then s!"/// <{opening} />"
  else
    match Text.lines content with
    | [line] => s!"/// <{opening}>{line}</{comment.tag}>"
    | lines =>
      Text.unlines
        ([s!"/// <{opening}>"] ++ lines.map contentLine ++ [s!"/// </{comment.tag}>"])

end CommentTag

/-- What stands in front of a declaration. -/
structure Preamble where
  comments : List CommentTag := []
  attributes : List String := []
  deriving Repr

namespace Preamble

/-- A preamble with one more comment. -/
def addComment (preamble : Preamble) (comment : CommentTag) : Preamble :=
  { preamble with comments := preamble.comments ++ [comment] }

/-- A preamble with one more attribute. -/
def addAttribute (preamble : Preamble) (text : String) : Preamble :=
  { preamble with attributes := preamble.attributes ++ [text] }

/-- A preamble that marks a deprecated declaration. -/
def addObsolete (preamble : Preamble) (deprecated : Option String) : Preamble :=
  match deprecated with
  | none => preamble
  | some message => preamble.addAttribute (obsoleteAttribute message)

/-- The pieces of a preamble: comments first, then attributes in brackets. -/
def pieces (preamble : Preamble) : List String :=
  preamble.comments.map CommentTag.text ++ preamble.attributes.map fun text => s!"[{text}]"

end Preamble

/-- A block between braces under the pieces of a preamble and a header. -/
def braced (preamble : Preamble) (header : String) (body : Block) : Block :=
  Block.ofLines
    (preamble.pieces ++ [header, "\x7b"] ++ (if body.isEmpty then [] else [body.indent.text]) ++
      ["\x7d"])

/-- A declaration of a type with its members. -/
structure Container where
  type : String
  name : String
  preamble : Preamble := {}
  blocks : List Block := []
  deriving Repr

namespace Container

/-- A container with one more member; a member without anything but blanks is left out. -/
def addBlock (container : Container) (block : Block) : Container :=
  if block.isEmpty then container else { container with blocks := container.blocks ++ [block] }

/-- The members of a container, one empty line apart. -/
def body (container : Container) : Block :=
  container.blocks.foldl Block.addBlock {}

/-- The code of a container. -/
def build (container : Container) : Block :=
  braced container.preamble s!"{container.type} {container.name}" container.body

end Container

/-- A parameter of a method. -/
structure Parameter where
  type : String
  name : String
  defaultValue : Option String := none
  deriving DecidableEq, Repr

/-- The text of a parameter. -/
def Parameter.text (parameter : Parameter) : String :=
  match parameter.defaultValue with
  | none => s!"{parameter.type} {parameter.name}"
  | some value => s!"{parameter.type} {parameter.name} = {value}"

/-- A declaration of a method or a constructor. -/
structure Method where
  access : String
  returnType : String
  name : String
  preamble : Preamble := {}
  parameters : List Parameter := []
  body : Block := {}
  deriving Repr

namespace Method

/-- A method with one more parameter, and with a comment on the parameter if
there is documentation. -/
def addParameter (method : Method) (parameter : Parameter) (doc : Option String) : Method :=
  let preamble :=
    match doc with
    | none => method.preamble
    | some doc =>
      if doc.isEmpty then method.preamble
      else
        let name := Text.trimStart (· == '@') parameter.name
        method.preamble.addComment ⟨"param", doc, some "name", some name⟩
  { method with preamble, parameters := method.parameters ++ [parameter] }

/-- The header line of a method; the words that are empty are left out. -/
def header (method : Method) : String :=
  let signature :=
    " ".intercalate
      ([method.access, method.returnType, method.name].filter fun word => !word.isEmpty)
  let parameters := ", ".intercalate (method.parameters.map Parameter.text)
  s!"{signature}({parameters})"

/-- The code of a method. -/
def build (method : Method) : Block :=
  braced method.preamble method.header method.body

end Method

end SliceRecords.Code
