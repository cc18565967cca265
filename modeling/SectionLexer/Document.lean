import SectionLexer.Lexeme
import SectionLexer.Literal
import SectionLexer.Token

/-! Documents as trees: how a tree is written down, and the frames and literals it consists of. -/
namespace SectionLexer

/-- The name of a section: a letter, then letters or digits. -/
structure SectionName where
  first : Char
  more : List Char
  isLetter_first : isLetter first = true
  isNameCharacter_of_mem_more : ∀ c ∈ more, isNameCharacter c = true

def SectionName.chars (n : SectionName) : List Char := n.first :: n.more

/-- Whether a text starts with a name and, right behind it, a colon that does not open a text
block. -/
def StartsWithHeader (s : List Char) : Prop :=
  ∃ (n : SectionName) (t : List Char), s = n.chars ++ ':' :: t ∧ t.head? ≠ some ':'

/-- The characters that no plain argument starts with: separators, the space, and the quotes of
enclosed arguments. -/
def plainBarriers : List Char := [' ', ',', '\n', '"', Quote.single.char, Quote.back.char]

/-- An argument that is written as it is. Commas and line ends stand only inside its brackets. -/
structure PlainText where
  chars : List Char
  chars_ne_nil : chars ≠ []
  head_notMem : ∀ c ∈ chars.head?, c ∉ plainBarriers
  last_ne_space : chars.getLast? ≠ some ' '
  separator_nested : ∀ s c t, chars = s ++ c :: t → Bracket.openAfter s = [] → c ≠ ',' ∧ c ≠ '\n'
  openAfter_chars : Bracket.openAfter chars = []

/-- An argument with what it stands for. A text that ends in a backslash has no spelling, nor does a
formulation with its own quote in it. -/
inductive Argument where
  | text (s : List Char) (last_ne : s.getLast? ≠ some '\\')
  | formulation (q : Quote) (s : List Char) (notMem : q.char ∉ s)
  | plain (s : PlainText)

namespace Argument

def spelling : Argument → List Char
  | text s _ => '"' :: Literal.escape s ++ ['"']
  | formulation q s _ => q.char :: s ++ [q.char]
  | plain s => s.chars

/-- The literal of an argument: its kind and its text. -/
def content : Argument → Kind × List Char
  | text s _ => (.text, s)
  | formulation _ s _ => (.formulation, s)
  | plain s => (.argumentText, s.chars)

/-- Behind a dot, such an argument would be read as a section. -/
def LooksLikeSection : Argument → Prop
  | plain s => StartsWithHeader s.chars
  | _ => False

/-- Arguments with a comma and a space between them. -/
def spellings (first : Argument) (more : List Argument) : List Char :=
  first.spelling ++ more.flatMap fun a => ',' :: ' ' :: a.spelling

def contents (first : Argument) (more : List Argument) : List (Kind × List Char) :=
  first.content :: more.flatMap fun a => [(.comma, [',']), a.content]

/-- The arguments on the line of a section's name, if there are any. -/
def inlineSpellings : List Argument → List Char
  | [] => []
  | a :: as => ' ' :: spellings a as

def inlineContents : List Argument → List (Kind × List Char)
  | [] => []
  | a :: as => contents a as

end Argument

mutual
/-- A name, the arguments on its line, and what the lines below it go on with. -/
inductive Section where
  | mk (name : SectionName) (inline : List Argument) (continuations : List Continuation)
/-- What a dot introduces: arguments, or sections of their own. -/
inductive Continuation where
  | arguments (first : Argument) (more : List Argument) (plain : ¬ first.LooksLikeSection)
  | group (sections : SectionGroup)
/-- One section or several. -/
inductive SectionGroup where
  | mk (first : Section) (more : List Section)
end

/-- Groups of sections, with a blank line between them. -/
structure Document where
  groups : List SectionGroup

/-- The spaces in front of a line, two for each level. -/
def indentation (depth : Nat) : List Char := List.replicate (2 * depth) ' '

mutual
/-- A section is written from its name on. What stands before the name is up to where the section
stands: a dot introduces the first one of a group, indentation the others. -/
def Section.render (depth : Nat) : Section → List Char
  | .mk name inline continuations =>
    name.chars ++ ':' :: Argument.inlineSpellings inline ++ '\n' ::
      Continuation.renderAll depth continuations

def Continuation.render (depth : Nat) : Continuation → List Char
  | .arguments first more _ =>
    indentation depth ++ '.' :: ' ' :: Argument.spellings first more ++ ['\n']
  | .group sections => indentation depth ++ '.' :: ' ' :: sections.render (depth + 1)

def SectionGroup.render (depth : Nat) : SectionGroup → List Char
  | .mk first more => first.render depth ++ Section.renderAll depth more

def Continuation.renderAll (depth : Nat) : List Continuation → List Char
  | [] => []
  | c :: cs => c.render depth ++ Continuation.renderAll depth cs

def Section.renderAll (depth : Nat) : List Section → List Char
  | [] => []
  | s :: ss => indentation depth ++ s.render depth ++ Section.renderAll depth ss
end

def Document.render (d : Document) : List Char :=
  ['\n'].intercalate (d.groups.map (·.render 0))

example :
    let b := Section.mk ⟨'B', [], by decide, by simp⟩ [.text ['x'] (by decide)] []
    let a := Section.mk ⟨'A', [], by decide, by simp⟩ [] [.group (.mk b [b])]
    (Document.mk [.mk a []]).render = "A:\n. B: \"x\"\n  B: \"x\"\n".toList := by decide

/-- What a token is, wherever it stands. -/
def Token.content (t : Token) : Kind × List Char := (t.kind, t.text.toList)

/-- What stands inside a frame, between the marks of the frame. -/
def Frame.around (f : Frame) (cs : List (Kind × List Char)) : List (Kind × List Char) :=
  (.opening f, []) :: cs ++ [(.closing f, [])]

mutual
def Section.contents : Section → List (Kind × List Char)
  | .mk name inline continuations =>
    Frame.sect.around ((.name, name.chars) :: (.colon, [':']) ::
      (Argument.inlineContents inline ++ Continuation.contentsAll continuations))

def Continuation.contents : Continuation → List (Kind × List Char)
  | .arguments first more _ => Frame.argument.around (Argument.contents first more)
  | .group sections => Frame.argument.around (Frame.argumentGroup.around sections.contents)

def SectionGroup.contents : SectionGroup → List (Kind × List Char)
  | .mk first more => first.contents ++ Section.contentsAll more

def Continuation.contentsAll : List Continuation → List (Kind × List Char)
  | [] => []
  | c :: cs => c.contents ++ Continuation.contentsAll cs

def Section.contentsAll : List Section → List (Kind × List Char)
  | [] => []
  | s :: ss => s.contents ++ Section.contentsAll ss
end

def Document.contents (d : Document) : List (Kind × List Char) :=
  d.groups.flatMap fun g => Frame.topLevelGroup.around g.contents

end SectionLexer
