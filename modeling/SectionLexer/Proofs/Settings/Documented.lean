import SectionLexer.Settings.Loader

/-! The settings that there are, and what is documented of a settings library: how it reads dotted
keys, and that a source lies over the sources before it, an override over all of them. -/
namespace SectionLexer.Settings

/-- What can be set. -/
inductive Setting where
  | trailingNewlines
  | reportTrailingWhitespace
  | pipeline
  | format
deriving DecidableEq, Repr

namespace Setting

def group : Setting → Group
  | trailingNewlines | reportTrailingWhitespace => .lexing
  | pipeline | format => .output

/-- The key in the table of the group. -/
def name : Setting → String
  | trailingNewlines => "trailing_newlines"
  | reportTrailingWhitespace => "report_trailing_whitespace"
  | pipeline => "pipeline"
  | format => "format"

/-- The dotted key, which overrides and complaints use. -/
def spelling (k : Setting) : String := k.group.key ++ "." ++ k.name

def path (k : Setting) : Path := ⟨k.group.key, [.key k.name]⟩

/-- The value that a setting has of its own. -/
def default : Setting → Scalar
  | trailingNewlines => .int 3
  | reportTrailingWhitespace => .bool true
  | pipeline => .text "default"
  | format => .text "simple"

theorem eq_of_name {j k : Setting} (h : j.name = k.name) : j = k := by
  revert h
  cases j <;> cases k <;> decide

theorem path_inj {j k : Setting} : j.path = k.path ↔ j = k := by
  refine ⟨fun h => eq_of_name ?_, congrArg _⟩
  simpa [path] using congrArg Path.steps h

end Setting

/-- The value of a setting, in the table of its group. -/
def Value.setting? (root : Value) (k : Setting) : Option Value :=
  (root.get? k.group.key).bind (·.get? k.name)

/-- The value that a layer gives a setting. -/
def Layer.setting? (layer : Layer) (k : Setting) : Option Value :=
  (Value.table none layer).setting? k

/-- The fields give the settings of a group nothing but scalars. Under the keys of no setting they
may hold anything. -/
def Group.Plain (g : Group) (fields : List (String × Value)) : Prop :=
  ∀ f ∈ fields, (∃ k : Setting, k.group = g ∧ ∃ o s, f = (k.name, .leaf o s)) ∨
    ∀ k : Setting, k.group = g → Text.lowercase f.1 ≠ k.name

/-- The layer sets settings only in the tables of their groups. Under the keys of no group it may
hold anything. -/
def Library.Plain (lib : Library) (layer : Layer) : Prop :=
  ∀ f ∈ layer, (∃ g : Group, ∃ o fields, f = (g.key, .table o fields) ∧ g.Plain fields) ∨
    ∀ g : Group, Text.lowercase (lib.pathOf f.1).head ≠ g.key

/-- Overrides of settings by scalars. -/
def PlainOverrides (overrides : List (Path × Value)) : Prop :=
  ∀ f ∈ overrides, ∃ (k : Setting) (s : Scalar), f = (k.path, .leaf none s)

/-- What is documented of a library. Nothing is said of what values convert. -/
structure Library.Documented (lib : Library) : Prop where
  /-- A dotted key leads through tables. -/
  readPath_spelling (k : Setting) : lib.readPath k.spelling = .ok k.path
  /-- The built-in text is TOML and sets every setting. -/
  parse?_builtInText : ∃ layer, lib.parse? none builtInText = some layer ∧ lib.Plain layer ∧
    ∀ k, Layer.setting? layer k = some (.leaf none k.default)
  /-- Nothing is merged without complaint. -/
  merge_nil : ∃ root, lib.merge [] [] = .ok root
  /-- A source lies over those before it: a setting that it has is taken from it, any other one is
  left as it was. -/
  merge_source {sources : List Source} {origin : Option String} {text : String} {layer : Layer}
    {root : Value} (hroot : lib.merge sources [] = .ok root)
    (hparse : lib.parse? origin text = some layer) (hplain : lib.Plain layer) :
    ∃ above, lib.merge (sources ++ [.ok (text, origin)]) [] = .ok above ∧
      ∀ k, above.setting? k = (Layer.setting? layer k).or (root.setting? k)
  /-- An override lies over all sources, and over the overrides before it. -/
  merge_override {sources : List Source} {overrides : List (Path × Value)} {root : Value}
    (hroot : lib.merge sources overrides = .ok root) (hplain : PlainOverrides overrides)
    (k : Setting) (s : Scalar) :
    ∃ above, lib.merge sources (overrides ++ [(k.path, .leaf none s)]) = .ok above ∧
      ∀ j, above.setting? j = if j = k then some (.leaf none s) else root.setting? j
  /-- A source that cannot be had is complained about if all sources before it can be. -/
  merge_error {sources : List Source} {root : Value} (hroot : lib.merge sources [] = .ok root)
    (e : Error) (rest : List Source) (overrides : List (Path × Value)) :
    lib.merge (sources ++ .error e :: rest) overrides = .error e
  /-- A group is read from its table setting by setting, in order. -/
  readGroup_table {α β : Type} {g : Group} (first : Entry → Except Misfit α)
    (second : Entry → Except Misfit β) (o : Option String) {fields : List (String × Value)}
    {j k : Setting} {a b : Value} (hj : j.group = g) (hk : k.group = g)
    (hnames : g.names = (j.name, k.name)) (ha : fields.lookup j.name = some a)
    (hb : fields.lookup k.name = some b) :
    lib.readGroup g first second (.table o fields) = (do
      let x ← first ⟨j.spelling, a⟩
      let y ← second ⟨k.spelling, b⟩
      return (x, y))

end SectionLexer.Settings
