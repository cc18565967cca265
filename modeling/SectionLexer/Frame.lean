/-! The four structures that may be open at a point of a document. -/
namespace SectionLexer

/-- A group of sections at the top level, one section, the sections that make up an argument, or an
argument that a dot introduces. -/
inductive Frame where
  | topLevelGroup
  | sect
  | argumentGroup
  | argument
deriving DecidableEq, Repr

namespace Frame

def label : Frame → String
  | topLevelGroup => "TopLevelGroup"
  | sect => "Section"
  | argumentGroup => "ArgumentGroup"
  | argument => "Argument"

instance : ToString Frame := ⟨label⟩

def all : List Frame := [topLevelGroup, sect, argumentGroup, argument]

theorem mem_all (f : Frame) : f ∈ all := by cases f <;> decide

end Frame

end SectionLexer
