import SectionLexer.Format.Json
import SectionLexer.Format.Tree
import SectionLexer.Format.Yaml

/-! The forms in which a token list is written. -/
namespace SectionLexer

inductive Format where
  | simple
  | tree
  | json
  | yaml
deriving DecidableEq, Repr

namespace Format

def label : Format → String
  | simple => "simple"
  | tree => "tree"
  | json => "json"
  | yaml => "yaml"

instance : ToString Format := ⟨label⟩

def all : List Format := [simple, tree, json, yaml]

def ofLabel? (s : String) : Option Format := all.find? (·.label == s)

theorem ofLabel?_label (f : Format) : ofLabel? f.label = some f := by cases f <;> decide

/-- A name that no format has. -/
structure Unknown where
  name : String
deriving DecidableEq, Repr

def Unknown.message (e : Unknown) : String := "Format '" ++ e.name ++ "' not found"

/-- The format of a name. -/
def named (s : String) : Except Unknown Format :=
  match ofLabel? s with
  | some f => .ok f
  | none => .error ⟨s⟩

/-- Tokens on one line. -/
def renderSimple (ts : List Token) : String := " ".intercalate (ts.map Token.display)

def render (f : Format) (ts : List Token) : String :=
  match f with
  | simple => renderSimple ts
  | tree => Tree.render ts
  | json => Json.render ts
  | yaml => Yaml.render ts

end Format

end SectionLexer
