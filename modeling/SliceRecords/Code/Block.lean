import SliceRecords.Text.Trim
import SliceRecords.Text.Quoted

/-!
# Blocks of code

A block is a piece of generated text of which blanks at the ends of lines and empty lines at its own
ends do not matter. Blocks compare by their normal text and are indented as a whole.
-/

namespace SliceRecords.Code

/-- A piece of generated text. -/
structure Block where
  content : String := ""
  deriving DecidableEq, Repr

namespace Block

/-- The text of one level of indentation. -/
def indentation : String := "    "

/-- The lines of the normal text: no blanks at the ends of lines, no empty lines at either end. -/
def normalLines (content : String) : List String :=
  Text.dropEnds String.isEmpty ((Text.lines content).map (Text.trimEnd Text.isBlank))

/-- The normal text of a block. -/
def text (block : Block) : String :=
  Text.unlines (normalLines block.content)

/-- A block without anything but blanks. -/
def isEmpty (block : Block) : Bool :=
  Text.isBlankText block.content

/-- A block with a line at its end. -/
def addLine (block : Block) (line : String) : Block :=
  ⟨block.content ++ line ++ "\n"⟩

/-- A block with a text at its end, one empty line after what it holds already. The
empty text adds nothing. -/
def addText (block : Block) (text : String) : Block :=
  if text.isEmpty then block
  else
    let before := if block.isEmpty then block.content else block.text ++ "\n\n"
    ⟨before ++ text ++ "\n"⟩

/-- A block with the text of another one at its end. -/
def addBlock (block other : Block) : Block :=
  block.addText other.text

/-- A line one level further in; a blank line becomes empty. -/
def indentLine (line : String) : String :=
  if Text.isBlankText line then "" else indentation ++ line

/-- A block one level further in. -/
def indent (block : Block) : Block :=
  ⟨Text.unlines ((Text.lines block.text).map indentLine)⟩

/-- Lines as a block. -/
def ofLines (lines : List String) : Block :=
  lines.foldl addLine {}

/-- Equality of blocks by their normal texts. -/
def same (a b : Block) : Bool :=
  a.text == b.text

/-- A block as messages show it. -/
def display (block : Block) : String :=
  s!"CodeBlock({Text.quoted block.text})"

end Block

end SliceRecords.Code
