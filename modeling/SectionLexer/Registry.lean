import SectionLexer.Format
import SectionLexer.Lexing

/-! Named configurations, each saying after which pass the lexing stops. -/
namespace SectionLexer

structure Configuration where
  name : String
  description : String
  last : Pass
deriving DecidableEq, Repr

/-- A name that no configuration has. -/
structure UnknownConfiguration where
  name : String
deriving DecidableEq, Repr

def UnknownConfiguration.message (e : UnknownConfiguration) : String :=
  "Config '" ++ e.name ++ "' not found"

/-- Configurations in the order of their names, one for each name. -/
structure Registry where
  entries : List Configuration
deriving DecidableEq, Repr

namespace Registry

def empty : Registry := ⟨[]⟩

/-- Puts a configuration in its place, instead of the one of its name if there is one. -/
def insert (c : Configuration) : List Configuration → List Configuration
  | [] => [c]
  | d :: ds =>
    if c.name < d.name then c :: d :: ds
    else if c.name = d.name then c :: ds
    else d :: insert c ds

def register (r : Registry) (c : Configuration) : Registry := ⟨insert c r.entries⟩

def get? (r : Registry) (name : String) : Option Configuration :=
  r.entries.find? (·.name == name)

def has (r : Registry) (name : String) : Bool := (r.get? name).isSome

def size (r : Registry) : Nat := r.entries.length

/-- The configurations that are always there. -/
def defaults : Registry :=
  [⟨"default", "Full pipeline: balanced structural tokens", .bracket⟩,
    ⟨"tokens-phase1", "Raw tokens with collected arguments", .scan⟩,
    ⟨"tokens-phase2", "Indentation resolved into Indent/UnIndent/LineBreak", .indent⟩,
    ⟨"tokens-phase3", "Balanced Begin/End structural tokens", .bracket⟩].foldl register empty

/-- Runs the configuration of a name on a document. -/
def execute (r : Registry) (options : Options) (name source path : String) :
    Except UnknownConfiguration Stream :=
  match r.get? name with
  | some c => .ok (lexUpTo c.last source path options)
  | none => .error ⟨name⟩

/-- Runs a configuration and writes its tokens. -/
def render (r : Registry) (options : Options) (name source path : String) (format : Format) :
    Except UnknownConfiguration (String × Stream) :=
  (r.execute options name source path).map fun s => (format.render s.tokens, s)

/-- Each name stands before the next. -/
def Ascending (r : Registry) : Prop := r.entries.Pairwise fun c d => c.name < d.name

theorem ascending_empty : Ascending empty := List.Pairwise.nil

theorem mem_insert {c d : Configuration} {ds : List Configuration} (h : d ∈ insert c ds) :
    d = c ∨ d ∈ ds := by
  induction ds with
  | nil => simpa [insert] using h
  | cons e ds ih =>
    rw [insert] at h
    split at h
    · simpa using h
    · split at h
      · simp only [List.mem_cons] at h ⊢
        exact h.imp_right Or.inr
      · simp only [List.mem_cons] at h ⊢
        rcases h with h | h
        · exact .inr (.inl h)
        · exact (ih h).imp_right Or.inr

theorem pairwise_insert (c : Configuration) {ds : List Configuration}
    (h : ds.Pairwise fun c d => c.name < d.name) :
    (insert c ds).Pairwise fun c d => c.name < d.name := by
  induction ds with
  | nil => simp [insert]
  | cons d ds ih =>
    obtain ⟨hd, hds⟩ := List.pairwise_cons.1 h
    rw [insert]
    split
    · next hlt =>
      refine List.pairwise_cons.2 ⟨fun e he => ?_, h⟩
      rcases List.mem_cons.1 he with rfl | he
      · exact hlt
      · exact String.lt_trans hlt (hd e he)
    · next hlt =>
      split
      · next heq => exact List.pairwise_cons.2 ⟨fun e he => heq ▸ hd e he, hds⟩
      · next hne =>
        refine List.pairwise_cons.2 ⟨fun e he => ?_, ih hds⟩
        rcases mem_insert he with rfl | he
        · exact Std.lt_of_le_of_ne (String.not_lt.1 hlt) (Ne.symm hne)
        · exact hd e he

theorem Ascending.register {r : Registry} (h : r.Ascending) (c : Configuration) :
    (r.register c).Ascending := pairwise_insert c h

theorem get?_register_self (r : Registry) (c : Configuration) :
    (r.register c).get? c.name = some c := by
  simp only [Registry.register, get?]
  induction r.entries with
  | nil => simp [insert]
  | cons d ds ih =>
    rw [insert]
    split
    · simp
    · split
      · simp
      · next h => simpa [Ne.symm h] using ih

theorem get?_register_of_ne (r : Registry) {c : Configuration} {name : String}
    (h : name ≠ c.name) : (r.register c).get? name = r.get? name := by
  simp only [Registry.register, get?]
  have hc : (c.name == name) = false := by simpa using Ne.symm h
  induction r.entries with
  | nil => simp [insert, hc]
  | cons d ds ih =>
    rw [insert]
    split
    · simp [hc]
    · split
      · next heq => simp [hc, ← heq]
      · simp [List.find?_cons, ih]

end Registry

end SectionLexer
