
namespace Spreadsheet

/-- Where the text of a cell stands. -/
inductive Align where
  | left
  | center
  | right
deriving DecidableEq, Repr, Inhabited

namespace Align

/-- The alignment behind this one in the round from left over center to right. -/
def next : Align → Align
  | .left => .center
  | .center => .right
  | .right => .left

def name : Align → String
  | .left => "left"
  | .center => "center"
  | .right => "right"

def ofName? : String → Option Align
  | "left" => some .left
  | "center" => some .center
  | "right" => some .right
  | _ => none

end Align

/-- The sides of a cell that carry a line. -/
structure Border where
  top : Bool := false
  right : Bool := false
  bottom : Bool := false
  left : Bool := false
deriving DecidableEq, Repr, Inhabited

namespace Border

def all : Border := ⟨true, true, true, true⟩

def isEmpty (b : Border) : Bool := !(b.top || b.right || b.bottom || b.left)

/-- The border, unless it has no line. -/
def nonempty? (b : Border) : Option Border := if b.isEmpty then none else some b

end Border

/-- The look of a cell. -/
structure Style where
  bold : Bool := false
  italic : Bool := false
  underline : Bool := false
  align : Align := .left
  wrap : Bool := false
  fill : Option String := none
  border : Option Border := none
deriving DecidableEq, Repr, Inhabited

/-- The attributes of a style that are on or off. -/
inductive StyleFlag where
  | bold
  | italic
  | underline
  | wrap
deriving DecidableEq, Repr

/-- A style with one attribute switched to the other state. -/
def Style.toggle (style : Style) : StyleFlag → Style
  | .bold => { style with bold := !style.bold }
  | .italic => { style with italic := !style.italic }
  | .underline => { style with underline := !style.underline }
  | .wrap => { style with wrap := !style.wrap }

end Spreadsheet
