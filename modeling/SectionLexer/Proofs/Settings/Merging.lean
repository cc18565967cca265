import Mathlib.Data.List.Induction
import SectionLexer.Proofs.Settings.BuiltIn
import SectionLexer.Proofs.Settings.Conversions
import SectionLexer.Proofs.Settings.DistinctKeys

/-! What a layer or an override leaves under each setting: its own value where it has one, and else
what was there before. So the library that settings are loaded with does what is documented of
one. -/
namespace SectionLexer.Settings

namespace Setting

theorem parse_spelling (k : Setting) : Path.parse k.spelling = .ok k.path := by
  cases k <;> rfl

theorem lowercase_name (k : Setting) : Text.lowercase k.name = k.name := by
  cases k <;> decide +kernel

end Setting

namespace Group

theorem ofKey_key (g : Group) : Path.ofKey g.key = ⟨g.key, []⟩ := by cases g <;> rfl

theorem lowercase_key (g : Group) : Text.lowercase g.key = g.key := by
  cases g <;> decide +kernel

theorem key_inj {g h : Group} : g.key = h.key ↔ g = h := by
  cases g <;> cases h <;> decide

end Group

variable {root below : Value} {g : Group} {j k : Setting} {o : Option String} {s : Scalar}
  {fields layer : List (String × Value)}

namespace Value

theorem get?_set (w : Value) (key other : String) (v : Value) :
    (w.set key v).get? other = if other = key then some v else w.get? other := by
  split
  · next h => rw [h, get?_set_self]
  · next h => exact get?_set_of_ne w h v

theorem get?_getD_empty (w : Option Value) (key : String) :
    (w.getD empty).get? key = w.bind (·.get? key) := by
  cases w <;> rfl

/-! An override. -/

theorem setAt_path (root : Value) (k : Setting) (o : Option String) (s : Scalar) :
    root.setAt k.path (.leaf o s) =
      root.set k.group.key (((root.get? k.group.key).getD empty).set k.name (.leaf o s)) := by
  simp [setAt, Setting.path, assign, Group.lowercase_key, Setting.lowercase_name, merge]

theorem setting?_setAt (root : Value) (j k : Setting) (o : Option String) (s : Scalar) :
    (root.setAt j.path (.leaf o s)).setting? k =
      if k = j then some (.leaf o s) else root.setting? k := by
  rw [setAt_path, setting?, get?_set, setting?]
  by_cases hgroup : k.group = j.group
  · have hname : k.name = j.name ↔ k = j := ⟨Setting.eq_of_name, congrArg _⟩
    rw [if_pos (by rw [hgroup]), Option.bind_some, get?_set, get?_getD_empty, hgroup]
    simp only [hname]
  · have hne : k ≠ j := fun h => hgroup (congrArg _ h)
    rw [if_neg (mt Group.key_inj.1 hgroup), if_neg hne]

end Value

/-! A layer. -/

/-- A key that the fields of a group hold is that of a setting, or is none in lowercase either. -/
theorem Group.Plain.cons_cases {f : String × Value} (h : k.group.Plain (f :: fields)) :
    (∃ o s, f = (k.name, .leaf o s)) ∨ f.1 ≠ k.name ∧ Text.lowercase f.1 ≠ k.name := by
  rcases h f List.mem_cons_self with ⟨j, -, o, s, rfl⟩ | hother
  · by_cases hjk : j = k
    · exact .inl ⟨o, s, hjk ▸ rfl⟩
    · have hname : j.name ≠ k.name := fun h => hjk (Setting.eq_of_name h)
      exact .inr ⟨hname, by rwa [j.lowercase_name]⟩
  · refine .inr ⟨fun hname => hother k rfl ?_, hother k rfl⟩
    rw [hname, k.lowercase_name]

theorem Library.standard_pathOf (key : String) : Library.standard.pathOf key = Path.ofKey key := rfl

/-- The like for the tables of the groups. -/
theorem Library.Plain.cons_cases {f : String × Value} (h : Library.standard.Plain (f :: layer))
    (g : Group) :
    (∃ o fields, f = (g.key, .table o fields) ∧ g.Plain fields) ∨
      f.1 ≠ g.key ∧ Text.lowercase (Path.ofKey f.1).head ≠ g.key := by
  simp only [Library.Plain, Library.standard_pathOf] at h
  rcases h f List.mem_cons_self with ⟨g', o, fields, rfl, hfields⟩ | hother
  · by_cases hg : g' = g
    · subst hg
      exact .inl ⟨o, fields, rfl, hfields⟩
    · have hkey : g'.key ≠ g.key := mt Group.key_inj.1 hg
      refine .inr ⟨hkey, ?_⟩
      rw [Group.ofKey_key, Group.lowercase_key]
      exact hkey
  · refine .inr ⟨fun hkey => hother g ?_, hother g⟩
    rw [hkey, Group.ofKey_key, Group.lowercase_key]

namespace Value

/-- Fields over those of a value. -/
theorem get?_mergeEach (hplain : k.group.Plain fields) (hnodup : (fields.map Prod.fst).Nodup)
    (below : Value) :
    (mergeEach below fields).get? k.name = (fields.lookup k.name).or (below.get? k.name) := by
  induction fields generalizing below with
  | nil => simp [mergeEach]
  | cons f fields ih =>
    have hrest : k.group.Plain fields := fun e he => hplain e (List.mem_cons_of_mem _ he)
    obtain ⟨hnew, hnodup⟩ := List.nodup_cons.1 hnodup
    rw [mergeEach, ih hrest hnodup, get?_set, List.lookup_cons]
    rcases hplain.cons_cases with ⟨o, s, rfl⟩ | ⟨hne, hlower⟩
    · rw [lookup_eq_none_of_notMem hnew, k.lowercase_name]
      simp [merge]
    · have hbeq : (k.name == f.1) = false := by simpa using Ne.symm hne
      rw [if_neg (Ne.symm hlower), hbeq]

theorem setAt_key (root : Value) (g : Group) (o : Option String) (fields : List (String × Value)) :
    root.setAt (Path.ofKey g.key) (.table o fields) =
      root.set g.key (mergeEach ((root.get? g.key).getD empty) fields) := by
  simp [setAt, assign, Group.ofKey_key, Group.lowercase_key, merge]

theorem get?_setAt_of_ne {p : Path} {key : String} (h : Text.lowercase p.head ≠ key)
    (root v : Value) :
    (root.setAt p v).get? key = root.get? key := by
  rw [setAt, assign]
  exact get?_set_of_ne _ (Ne.symm h) _

theorem lay_cons (root : Value) (f : String × Value) (layer : Layer) :
    lay root (f :: layer) = lay (root.setAt (Path.ofKey f.1) f.2) layer := rfl

theorem get?_table_cons (o : Option String) (key other : String) (v : Value)
    (fields : List (String × Value)) :
    (table o ((key, v) :: fields)).get? other =
      if other = key then some v else (table o fields).get? other := by
  rw [get?, List.lookup_cons]
  split
  · next h => rw [if_pos (eq_of_beq h)]
  · next h => rw [if_neg (by simpa using h), get?]

/-- A layer over a value. -/
theorem setting?_lay (hplain : Library.standard.Plain layer) (hdistinct : DistinctKeys layer)
    (root : Value) (k : Setting) :
    (lay root layer).setting? k = (Layer.setting? layer k).or (root.setting? k) := by
  induction layer generalizing root with
  | nil => simp [lay, Layer.setting?, setting?, get?]
  | cons f layer ih =>
    obtain ⟨key, v⟩ := f
    obtain ⟨hnodup, hinner⟩ := hdistinct
    obtain ⟨hnew, hnodup⟩ := List.nodup_cons.1 hnodup
    have hrest : Library.standard.Plain layer := fun e he => hplain e (List.mem_cons_of_mem _ he)
    have hdistinct : DistinctKeys layer :=
      ⟨hnodup, fun key o inner h => hinner key o inner (List.mem_cons_of_mem _ h)⟩
    rw [lay_cons, ih hrest hdistinct, Layer.setting?, Layer.setting?, setting?, setting?, setting?,
      setting?, get?_table_cons]
    rcases hplain.cons_cases k.group with ⟨o, fields, hf, hfields⟩ | ⟨hne, hlower⟩
    · obtain ⟨rfl, rfl⟩ := Prod.mk.inj hf
      have hnone : (Value.table none layer).get? k.group.key = none := lookup_eq_none_of_notMem hnew
      have hfresh : (fields.map Prod.fst).Nodup := hinner _ o fields List.mem_cons_self
      rw [hnone, if_pos rfl, setAt_key, get?_set_self, Option.bind_none, Option.none_or,
        Option.bind_some, Option.bind_some, get?_mergeEach hfields hfresh, get?_getD_empty]
      rfl
    · rw [if_neg (Ne.symm hne), get?_setAt_of_ne hlower]

end Value

/-! Overrides. -/

/-- Overrides of settings by scalars, each setting at most once. -/
structure SingleOverrides (overrides : List (Path × Value)) : Prop where
  plain : PlainOverrides overrides
  nodup : (overrides.map Prod.fst).Nodup

namespace SingleOverrides

variable {overrides : List (Path × Value)}

theorem put (h : SingleOverrides overrides) (k : Setting) (s : Scalar) :
    SingleOverrides (put k.path (.leaf none s) overrides) := by
  refine ⟨fun f hf => ?_, nodup_put h.nodup⟩
  rcases mem_put hf with rfl | hf
  · exact ⟨k, s, rfl⟩
  · exact h.plain f hf

theorem setting?_setAll (h : SingleOverrides overrides) (root : Value) (k : Setting) :
    (root.setAll overrides).setting? k = (overrides.lookup k.path).or (root.setting? k) := by
  induction overrides generalizing root with
  | nil => rfl
  | cons f overrides ih =>
    obtain ⟨j, s, rfl⟩ := h.plain f List.mem_cons_self
    obtain ⟨hnew, hnodup⟩ := List.nodup_cons.1 h.nodup
    have hrest : SingleOverrides overrides :=
      ⟨fun e he => h.plain e (List.mem_cons_of_mem _ he), hnodup⟩
    rw [Value.setAll, List.foldl_cons, ← Value.setAll, ih hrest, Value.setting?_setAt,
      List.lookup_cons]
    by_cases hkj : k = j
    · subst hkj
      simp [lookup_eq_none_of_notMem hnew]
    · have hbeq : (k.path == j.path) = false := by simpa [Setting.path_inj] using hkj
      simp [hkj, hbeq]

end SingleOverrides

theorem lastOverrides_concat (overrides : List (Path × Value)) (p : Path) (v : Value) :
    lastOverrides (overrides ++ [(p, v)]) = put p v (lastOverrides overrides) := by
  simp [lastOverrides]

theorem PlainOverrides.single {overrides : List (Path × Value)} (h : PlainOverrides overrides) :
    SingleOverrides (lastOverrides overrides) := by
  induction overrides using List.reverseRecOn with
  | nil => exact ⟨by simp [PlainOverrides, lastOverrides], List.nodup_nil⟩
  | append_singleton overrides f ih =>
    obtain ⟨k, s, rfl⟩ := h f (by simp)
    rw [lastOverrides_concat]
    exact (ih fun e he => h e (List.mem_append_left _ he)).put k s

/-! The library. -/

theorem mergeSources_eq_ok {sources : List Source} {overrides : List (Path × Value)}
    (h : mergeSources sources overrides = .ok root) :
    ∃ layers, sources.mapM Source.layer = .ok layers ∧
      root = (layers.foldl Value.lay .empty).setAll (lastOverrides overrides) := by
  obtain ⟨layers, hlayers, h⟩ := exists_of_bind_eq_ok h
  cases h
  exact ⟨layers, hlayers, rfl⟩

theorem mergeSources_of_layers {sources : List Source} {layers : List Layer}
    (h : sources.mapM Source.layer = .ok layers) (overrides : List (Path × Value)) :
    mergeSources sources overrides =
      .ok ((layers.foldl Value.lay .empty).setAll (lastOverrides overrides)) := by
  rw [mergeSources, h]
  rfl

theorem builtIn_plain : Library.standard.Plain builtIn := by
  intro f hf
  left
  rcases List.mem_pair.1 hf with rfl | rfl
  · refine ⟨.lexing, none, _, rfl, fun e he => .inl ?_⟩
    rcases List.mem_pair.1 he with rfl | rfl
    · exact ⟨.trailingNewlines, rfl, none, _, rfl⟩
    · exact ⟨.reportTrailingWhitespace, rfl, none, _, rfl⟩
  · refine ⟨.output, none, _, rfl, fun e he => .inl ?_⟩
    rcases List.mem_pair.1 he with rfl | rfl
    · exact ⟨.pipeline, rfl, none, _, rfl⟩
    · exact ⟨.format, rfl, none, _, rfl⟩

theorem readGroup_table {α β : Type} {g : Group} (first : Entry → Except Misfit α)
    (second : Entry → Except Misfit β) (o : Option String) {fields : List (String × Value)}
    {j k : Setting} {a b : Value} (hj : j.group = g) (hk : k.group = g)
    (hnames : g.names = (j.name, k.name)) (ha : fields.lookup j.name = some a)
    (hb : fields.lookup k.name = some b) :
    readGroup g first second (.table o fields) = (do
      let x ← first ⟨j.spelling, a⟩
      let y ← second ⟨k.spelling, b⟩
      return (x, y)) := by
  simp only [readGroup, hnames, Value.get?, ha, hb, Option.map_some, readOptional,
    Setting.spelling, hj, hk]
  cases first ⟨g.key ++ "." ++ j.name, a⟩ with
  | error e => rfl
  | ok x => cases second ⟨g.key ++ "." ++ k.name, b⟩ <;> rfl

/-- What settings are loaded with does what is documented. -/
theorem Library.standard_documented : Library.standard.Documented where
  readPath_spelling := Setting.parse_spelling
  parse?_builtInText := by
    refine ⟨builtIn, Settings.parse?_builtInText, builtIn_plain, fun k => ?_⟩
    cases k <;> rfl
  merge_nil := ⟨_, rfl⟩
  merge_source := by
    intro sources origin text layer root hroot hparse hplain
    obtain ⟨layers, hlayers, rfl⟩ := mergeSources_eq_ok hroot
    have habove : (sources ++ [Except.ok (text, origin)]).mapM Source.layer =
        .ok (layers ++ [layer]) := by
      rw [List.mapM_append, hlayers, List.mapM_cons, Source.layer_of_parse? hparse]
      rfl
    refine ⟨_, mergeSources_of_layers habove [], fun k => ?_⟩
    rw [List.foldl_append]
    exact Value.setting?_lay hplain (Toml.parse?_distinct hparse) _ k
  merge_override := by
    intro sources overrides root hroot hplain k s
    obtain ⟨layers, hlayers, rfl⟩ := mergeSources_eq_ok hroot
    refine ⟨_, mergeSources_of_layers hlayers _, fun j => ?_⟩
    have hsingle := hplain.single
    rw [lastOverrides_concat, (hsingle.put k s).setting?_setAll, hsingle.setting?_setAll]
    by_cases hjk : j = k
    · rw [if_pos hjk, hjk, lookup_put_self, Option.some_or]
    · rw [if_neg hjk, lookup_put_of_ne (mt Setting.path_inj.1 hjk)]
  merge_error := by
    intro sources root hroot e rest overrides
    obtain ⟨layers, hlayers, -⟩ := mergeSources_eq_ok hroot
    have herror : (sources ++ Except.error e :: rest).mapM Source.layer = .error e := by
      rw [List.mapM_append, hlayers, List.mapM_cons, Source.layer_error]
      rfl
    change mergeSources (sources ++ .error e :: rest) overrides = .error e
    rw [mergeSources, herror]
    rfl
  readGroup_table := Settings.readGroup_table

end SectionLexer.Settings
