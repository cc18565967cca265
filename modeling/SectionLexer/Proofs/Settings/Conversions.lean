import SectionLexer.Proofs.Settings.Documented

/-! Typed settings from a merged value: they are read from the values of the four settings and from
nothing else, and each of these has to convert. -/
namespace SectionLexer.Settings

variable {lib : Library} {root : Value}

theorem exists_of_bind_eq_ok {ε α β : Type} {x : Except ε α} {f : α → Except ε β} {b : β}
    (h : x >>= f = .ok b) : ∃ a, x = .ok a ∧ f a = .ok b := by
  cases x with
  | error e => cases h
  | ok a => exact ⟨a, rfl, h⟩

theorem eq_ok_of_mapError {ε ε' α : Type} {x : Except ε α} {f : ε → ε'} {a : α}
    (h : x.mapError f = .ok a) : x = .ok a := by
  cases x with
  | error e => cases h
  | ok b =>
    cases h
    rfl

/-- The value is one that the setting may have. -/
def Setting.converts (c : Conversions) (k : Setting) (v : Value) : Bool :=
  let e : Entry := ⟨k.spelling, v⟩
  match k with
  | trailingNewlines => (c.toNat e).isOk
  | reportTrailingWhitespace => (c.toBool e).isOk
  | pipeline => (c.toText e).isOk
  | format => (c.toFormat e).isOk

/-- The settings of given values. -/
def ofSettings (c : Conversions) (v : Setting → Value) : Except Misfit Settings := do
  let entry (k : Setting) : Entry := ⟨k.spelling, v k⟩
  let newlines ← c.toNat (entry .trailingNewlines)
  let whitespace ← c.toBool (entry .reportTrailingWhitespace)
  let pipeline ← c.toText (entry .pipeline)
  let format ← c.toFormat (entry .format)
  return ⟨⟨newlines, whitespace⟩, pipeline, format⟩

/-- What has a value under a key is a table. -/
theorem Value.exists_table_of_get? {w v : Value} {key : String} (h : w.get? key = some v) :
    ∃ o fields, w = .table o fields := by
  cases w with
  | table o fields => exact ⟨o, fields, rfl⟩
  | leaf | array => cases h

/-- Only the values of the settings count. -/
theorem ofValue_eq (hlib : lib.Documented) {v : Setting → Value}
    (h : ∀ k, root.setting? k = some (v k)) :
    ofValue lib.toConversions root = ofSettings lib.toConversions v := by
  have hgroup (k : Setting) : ∃ o fields, root.get? k.group.key = some (.table o fields) := by
    obtain ⟨w, hw, hv⟩ := Option.bind_eq_some_iff.1 (h k)
    obtain ⟨o, fields, rfl⟩ := Value.exists_table_of_get? hv
    exact ⟨o, fields, hw⟩
  have hfield (k : Setting) {o fields} (hw : root.get? k.group.key = some (.table o fields)) :
      fields.lookup k.name = some (v k) := by
    have hk := h k
    rwa [Value.setting?, hw] at hk
  -- each group has two settings, so either one shows its table
  obtain ⟨o, lexing, hlexing⟩ := hgroup .trailingNewlines
  obtain ⟨p, output, houtput⟩ := hgroup .pipeline
  have hread := hlib.readGroup_table (g := .lexing) lib.toNat lib.toBool o rfl rfl rfl
    (hfield .trailingNewlines hlexing) (hfield .reportTrailingWhitespace hlexing)
  have hread' := hlib.readGroup_table (g := .output) lib.toText lib.toFormat p rfl rfl rfl
    (hfield .pipeline houtput) (hfield .format houtput)
  have hrequire (g : Group) (w : Value) : require g.key (some w) = pure w := rfl
  simp only [Setting.group] at hlexing houtput
  simp only [ofValue, ofSettings, hlexing, houtput, hrequire, hread, hread', pure_bind, bind_assoc]

theorem exists_eq_error_iff {ε α : Type} {x : Except ε α} :
    (∃ e, x = .error e) ↔ x.isOk = false := by
  cases x <;> simp [Except.isOk, Except.toBool]

theorem isOk_bind {ε α β : Type} (x : Except ε α) (f : α → Except ε β) {b : Bool}
    (h : ∀ a, (f a).isOk = b) : (x >>= f).isOk = (x.isOk && b) := by
  cases x with
  | error e => rfl
  | ok a => exact h a

/-- The settings fail if one of the values does. -/
theorem ofSettings_eq_error_iff (c : Conversions) (v : Setting → Value) :
    (∃ e, ofSettings c v = .error e) ↔ ∃ k : Setting, k.converts c (v k) = false := by
  have hall : (ofSettings c v).isOk =
      (Setting.trailingNewlines.converts c (v .trailingNewlines) &&
        (Setting.reportTrailingWhitespace.converts c (v .reportTrailingWhitespace) &&
          (Setting.pipeline.converts c (v .pipeline) &&
            (Setting.format.converts c (v .format) && true)))) :=
    isOk_bind _ _ fun _ => isOk_bind _ _ fun _ => isOk_bind _ _ fun _ => isOk_bind _ _ fun _ => rfl
  rw [exists_eq_error_iff, hall]
  constructor
  · simp only [Bool.and_eq_false_iff, Bool.true_eq_false, or_false]
    rintro (h | h | h | h) <;> exact ⟨_, h⟩
  · rintro ⟨k, hk⟩
    cases k <;> simp [hk]

/-! Numbers. -/

namespace Entry

theorem nat?_le {s : String} {n : Nat} (h : nat? s = some n) : n ≤ natLimit := by
  simp only [nat?, Option.ite_none_right_eq_some] at h
  obtain ⟨hn, h⟩ := h
  obtain rfl := Option.some_inj.1 h
  simp only [Bool.and_eq_true, decide_eq_true_eq] at hn
  exact hn.2

/-- Whatever a number is read from, it has 64 bits. -/
theorem toNat_le {e : Entry} {n : Nat} (h : e.toNat = .ok n) : n ≤ natLimit := by
  rw [toNat] at h
  split at h
  · split at h
    · next hi =>
      cases h
      exact Int.toNat_le.2 hi.2
    · cases h
  · cases h
    exact Double.toNat_le natLimit _
  · next b _ =>
    cases h
    cases b <;> decide
  · split at h
    · cases h
      decide
    · split at h
      · cases h
        decide
      · split at h
        · next hs =>
          cases h
          exact nat?_le hs
        · cases h
  · cases h

/-- An integer is read as itself if 64 bits hold it, and refused otherwise. -/
theorem toNat_integer (key : String) (o : Option String) (i : Integer) (n : Nat) :
    toNat ⟨key, .leaf o (.integer i)⟩ = .ok n ↔ i.n = n ∧ IntType.u64.Holds i.n := by
  have hholds : IntType.u64.Holds i.n ↔ 0 ≤ i.n ∧ i.n ≤ natLimit := by
    have hlow : IntType.u64.low = 0 := rfl
    have hlimit : IntType.u64.limit = natLimit + 1 := rfl
    rw [IntType.Holds, hlow, hlimit, Int.lt_add_one_iff]
  rw [hholds, toNat]
  dsimp only
  split
  · next hi =>
    rw [Except.ok.injEq]
    omega
  · next hi => simp [hi]

end Entry

theorem exists_of_require {α : Type} {read : Entry → Except Misfit α} {e : Option Entry}
    {name : String} {a : α} {b : Option α} (hread : readOptional read e = .ok b)
    (h : require name b = .ok a) : ∃ e, read e = .ok a := by
  cases e with
  | none =>
    cases hread
    cases h
  | some e =>
    rw [readOptional, map_eq_pure_bind] at hread
    obtain ⟨x, hx, hread⟩ := exists_of_bind_eq_ok hread
    cases hread
    cases h
    exact ⟨e, hx⟩

/-- Both settings of a group come from some entry. -/
theorem exists_of_readGroup {α β : Type} {g : Group} {first : Entry → Except Misfit α}
    {second : Entry → Except Misfit β} {v : Value} {a : α} {b : β}
    (h : readGroup g first second v = .ok (a, b)) :
    (∃ e, first e = .ok a) ∧ ∃ e, second e = .ok b := by
  rw [readGroup.eq_def] at h
  dsimp only at h
  split at h
  · obtain ⟨a', ha, h⟩ := exists_of_bind_eq_ok h
    obtain ⟨b', hb, h⟩ := exists_of_bind_eq_ok h
    obtain ⟨a, ha', h⟩ := exists_of_bind_eq_ok h
    obtain ⟨b, hb', h⟩ := exists_of_bind_eq_ok h
    cases h
    exact ⟨exists_of_require ha ha', exists_of_require hb hb'⟩
  · cases h
  · obtain ⟨_, _, h⟩ := exists_of_bind_eq_ok h
    cases h
  · obtain ⟨a, ha, h⟩ := exists_of_bind_eq_ok h
    obtain ⟨b, hb, h⟩ := exists_of_bind_eq_ok h
    cases h
    exact ⟨⟨_, ha⟩, ⟨_, hb⟩⟩
  · cases h

/-- Newlines are appended in a number that 64 bits hold, whatever is loaded. -/
theorem trailingNewlines_le_of_build {l : Loader} {s : Settings} (h : l.build = .ok s) :
    s.lexing.trailingNewlines ≤ Entry.natLimit := by
  obtain ⟨root, -, h⟩ := exists_of_bind_eq_ok h
  have hread := eq_ok_of_mapError h
  obtain ⟨lexing, -, h⟩ := exists_of_bind_eq_ok hread
  obtain ⟨⟨n, b⟩, hlexing, h⟩ := exists_of_bind_eq_ok h
  obtain ⟨output, -, h⟩ := exists_of_bind_eq_ok h
  obtain ⟨⟨p, f⟩, -, h⟩ := exists_of_bind_eq_ok h
  cases h
  obtain ⟨⟨e, he⟩, -⟩ := exists_of_readGroup hlexing
  exact Entry.toNat_le he

end SectionLexer.Settings
