import Mathlib.Data.List.Induction
import SectionLexer.Proofs.Settings.Conversions
import SectionLexer.Proofs.Settings.Merging

/-! Settings from any number of layers and overrides, in any order: each setting has the value of
its last override, or else of the last layer that sets it, or else its own; and only these values
can be at fault. All of it holds with any library that does what is documented. -/
namespace SectionLexer.Settings.Loader

variable {lib : Library} {files : Files} {l : Loader} {name : String} {k : Setting} {root : Value}

/-- What is done with a loader before it is built. -/
inductive Call where
  | toml (text : String)
  | file (required : Bool) (name : String)
  | override (k : Setting) (s : Scalar)

def apply (lib : Library) (files : Files) (l : Loader) : Call → Except Error Loader
  | .toml text => .ok (l.addToml text none)
  | .file required name => .ok (l.addFile files required name lib)
  | .override k s => l.override? k.spelling (.leaf none s) lib

def run (lib : Library) (files : Files) (l : Loader) (calls : List Call) : Except Error Loader :=
  calls.foldlM (apply lib files) l

/-- What is built in the end from the built-in layer. -/
def outcome (lib : Library) (files : Files) (calls : List Call) : Except Error Settings := do
  (← run lib files {} calls).build lib

/-- There is no settings file of this name. -/
def Missing (lib : Library) (files : Files) (name : String) : Prop :=
  lib.readFile files name = .error (.missingFile name)

/-- The call adds a layer in TOML that sets settings only in their tables, or looks for a file that
is not there and need not be, or overrides a setting. -/
def Call.Ordinary (lib : Library) (files : Files) : Call → Prop
  | .toml text => ∃ layer, lib.parse? none text = some layer ∧ lib.Plain layer
  | .file required name => required = false ∧ Missing lib files name
  | .override _ _ => True

/-- What an override adds to a loader. -/
def Call.override? : Call → Option (Path × Value)
  | .override j s => some (j.path, .leaf none s)
  | _ => none

/-- The value that an override gives a setting. -/
def Call.overridden? (k : Setting) : Call → Option Value
  | .override j s => if k = j then some (.leaf none s) else none
  | _ => none

/-- The value that a layer gives a setting. -/
def Call.layered? (lib : Library) (k : Setting) : Call → Option Value
  | .toml text => (lib.parse? none text).bind (Layer.setting? · k)
  | _ => none

/-- The value of the last layer that sets a setting, or else its own. -/
def lastLayered (lib : Library) (calls : List Call) (k : Setting) : Value :=
  (calls.filterMap (Call.layered? lib k)).getLast?.getD (.leaf none k.default)

/-- The value of the last override of a setting, or else of the last layer that sets it, or else its
own. -/
def resolved (lib : Library) (calls : List Call) (k : Setting) : Value :=
  (calls.filterMap (Call.overridden? k)).getLast?.getD (lastLayered lib calls k)

variable {calls front back : List Call} {c : Call}

theorem getLast?_filterMap_concat {α β : Type} (f : α → Option β) (as : List α) (a : α) :
    ((as ++ [a]).filterMap f).getLast? = (f a).or (as.filterMap f).getLast? := by
  rw [List.filterMap_append, List.getLast?_append]
  cases h : f a <;> simp [h]

theorem apply_file (h : Missing lib files name) (l : Loader) (required : Bool) :
    apply lib files l (.file required name) =
      .ok (if required then l.addMissingFile name else l) := by
  rw [apply, addFile, h]
  rfl

theorem apply_override (hlib : lib.Documented) (files : Files) (l : Loader) (k : Setting)
    (s : Scalar) :
    apply lib files l (.override k s) = .ok (l.override k.path (.leaf none s)) := by
  rw [apply, override?, hlib.readPath_spelling]

/-- What the calls so far have left in a loader. -/
structure Holds (lib : Library) (calls : List Call) (l : Loader) : Prop where
  sources : ∃ root, lib.merge l.sources [] = .ok root ∧
    ∀ k, root.setting? k = some (lastLayered lib calls k)
  overrides : l.overrides = calls.filterMap Call.override?

theorem holds_nil (hlib : lib.Documented) : Holds lib [] {} where
  sources := by
    obtain ⟨bottom, hbottom⟩ := hlib.merge_nil
    obtain ⟨layer, hparse, hplain, hvalues⟩ := hlib.parse?_builtInText
    obtain ⟨root, hroot, hsetting⟩ := hlib.merge_source hbottom hparse hplain
    refine ⟨root, hroot, fun k => ?_⟩
    rw [hsetting, hvalues]
    rfl
  overrides := rfl

/-- One call. -/
theorem Holds.apply (hlib : lib.Documented) (h : Holds lib calls l) (hc : c.Ordinary lib files) :
    ∃ l', apply lib files l c = .ok l' ∧ Holds lib (calls ++ [c]) l' := by
  obtain ⟨root, hroot, hvalues⟩ := h.sources
  cases c with
  | toml text =>
    obtain ⟨layer, hparse, hplain⟩ := hc
    obtain ⟨above, habove, hsetting⟩ := hlib.merge_source hroot hparse hplain
    refine ⟨_, rfl, ⟨above, habove, fun k => ?_⟩, ?_⟩
    · rw [hsetting, hvalues, lastLayered, lastLayered, getLast?_filterMap_concat, Call.layered?,
        hparse, Option.bind_some]
      cases Layer.setting? layer k <;> rfl
    · simpa [addToml, addSource, List.filterMap_cons, Call.override?] using h.overrides
  | file required name =>
    obtain ⟨rfl, hmissing⟩ := hc
    refine ⟨l, apply_file hmissing l false, ⟨root, hroot, fun k => ?_⟩, ?_⟩
    · rw [hvalues, lastLayered, lastLayered, getLast?_filterMap_concat]
      rfl
    · simpa [List.filterMap_cons, Call.override?] using h.overrides
  | override j s =>
    refine ⟨_, apply_override hlib files l j s, ⟨root, hroot, fun k => ?_⟩, ?_⟩
    · rw [hvalues, lastLayered, lastLayered, getLast?_filterMap_concat]
      rfl
    · simp [Loader.override, Call.override?, h.overrides]

theorem run_append {m : Loader} (h : run lib files l front = .ok m) :
    run lib files l (front ++ back) = run lib files m back := by
  rw [run] at h
  rw [run, List.foldlM_append, h]
  rfl

theorem run_cons {m : Loader} (h : apply lib files l c = .ok m) :
    run lib files l (c :: back) = run lib files m back := by
  rw [run, List.foldlM_cons, h]
  rfl

/-- All calls. -/
theorem holds_run (hlib : lib.Documented) (h : ∀ c ∈ calls, c.Ordinary lib files) :
    ∃ l, run lib files {} calls = .ok l ∧ Holds lib calls l := by
  induction calls using List.reverseRecOn with
  | nil => exact ⟨{}, rfl, holds_nil hlib⟩
  | append_singleton calls c ih =>
    obtain ⟨l, hrun, hl⟩ := ih fun c hc => h c (List.mem_append_left _ hc)
    obtain ⟨l', happly, hl'⟩ := hl.apply hlib (h c (by simp))
    refine ⟨l', ?_, hl'⟩
    rw [run_append hrun, run_cons happly]
    rfl

theorem plainOverrides_calls (calls : List Call) :
    PlainOverrides (calls.filterMap Call.override?) := by
  intro f hf
  obtain ⟨c, -, hc⟩ := List.mem_filterMap.1 hf
  cases c with
  | override k s => exact ⟨k, s, (Option.some_inj.1 hc).symm⟩
  | toml | file => cases hc

/-- The overrides of the calls, over what the sources make. -/
theorem merge_calls (hlib : lib.Documented) {sources : List Source}
    (hroot : lib.merge sources [] = .ok root) (calls : List Call) :
    ∃ above, lib.merge sources (calls.filterMap Call.override?) = .ok above ∧
      ∀ k, above.setting? k =
        (calls.filterMap (Call.overridden? k)).getLast?.or (root.setting? k) := by
  -- from the end, since the last override lies over all others
  induction calls using List.reverseRecOn with
  | nil => exact ⟨root, hroot, fun _ => rfl⟩
  | append_singleton calls c ih =>
    obtain ⟨below, hbelow, hvalues⟩ := ih
    cases c with
    | override j s =>
      obtain ⟨above, habove, hsetting⟩ :=
        hlib.merge_override hbelow (plainOverrides_calls calls) j s
      refine ⟨above, by simpa [Call.override?] using habove, fun k => ?_⟩
      rw [hsetting, getLast?_filterMap_concat, Call.overridden?, hvalues]
      split <;> rfl
    | toml | file =>
      refine ⟨below, by simpa [List.filterMap_cons, Call.override?] using hbelow, fun k => ?_⟩
      rw [hvalues, getLast?_filterMap_concat]
      rfl

theorem Holds.build_eq (hlib : lib.Documented) (h : Holds lib calls l) :
    l.build lib = (ofSettings lib.toConversions (resolved lib calls)).mapError .misfit := by
  obtain ⟨root, hroot, hvalues⟩ := h.sources
  obtain ⟨above, habove, hsetting⟩ := merge_calls hlib hroot calls
  rw [← h.overrides] at habove
  have hresolved (k : Setting) : above.setting? k = some (resolved lib calls k) := by
    rw [hsetting, hvalues, resolved]
    cases (calls.filterMap (Call.overridden? k)).getLast? <;> rfl
  rw [build_of_merge habove, ofValue_eq hlib hresolved]

theorem outcome_eq (hlib : lib.Documented) (h : ∀ c ∈ calls, c.Ordinary lib files) :
    outcome lib files calls =
      (ofSettings lib.toConversions (resolved lib calls)).mapError .misfit := by
  obtain ⟨l, hrun, hl⟩ := holds_run hlib h
  rw [outcome, hrun, ← hl.build_eq hlib]
  rfl

/-- Calls keep the sources that there are. -/
theorem run_sources (hlib : lib.Documented) (l : Loader) (h : ∀ c ∈ calls, c.Ordinary lib files) :
    ∃ m, run lib files l calls = .ok m ∧ l.sources <+: m.sources := by
  induction calls generalizing l with
  | nil => exact ⟨l, rfl, List.prefix_rfl⟩
  | cons c calls ih =>
    obtain ⟨hc, hcalls⟩ := List.forall_mem_cons.1 h
    obtain ⟨m, happly, hm⟩ : ∃ m, apply lib files l c = .ok m ∧ l.sources <+: m.sources := by
      cases c with
      | toml text => exact ⟨_, rfl, List.prefix_append ..⟩
      | file required name =>
        obtain ⟨rfl, hmissing⟩ := hc
        exact ⟨l, apply_file hmissing l false, List.prefix_rfl⟩
      | override k s => exact ⟨_, apply_override hlib files l k s, List.prefix_rfl⟩
    obtain ⟨m', hrun, hm'⟩ := ih m hcalls
    exact ⟨m', (run_cons happly).trans hrun, hm.trans hm'⟩

/-- A required file that is missing is all that is told of. -/
theorem outcome_of_missing (hlib : lib.Documented) (hfront : ∀ c ∈ front, c.Ordinary lib files)
    (hback : ∀ c ∈ back, c.Ordinary lib files) (hmissing : Missing lib files name) :
    outcome lib files (front ++ .file true name :: back) = .error (.missingFile name) := by
  obtain ⟨l, hrun, hl⟩ := holds_run hlib hfront
  obtain ⟨root, hroot, -⟩ := hl.sources
  have happly : apply lib files l (.file true name) = .ok (l.addMissingFile name) :=
    apply_file hmissing l true
  obtain ⟨m, hrun', rest, hm⟩ := run_sources hlib (l.addMissingFile name) hback
  have hmerge : lib.merge m.sources m.overrides = .error (.missingFile name) := by
    rw [← hm, addMissingFile, addSource, List.append_assoc]
    exact hlib.merge_error hroot _ rest _
  rw [outcome, run_append hrun, run_cons happly, hrun']
  exact build_of_merge_error hmerge

/-- An override may stand on either side of calls that do not override its setting. -/
theorem resolved_moved {middle : List Call} {j : Setting} {s : Scalar}
    (h : ∀ c ∈ middle, c.overridden? j = none) (k : Setting) :
    resolved lib (front ++ (middle ++ .override j s :: back)) k =
      resolved lib (front ++ .override j s :: (middle ++ back)) k := by
  have hlayered : (front ++ (middle ++ .override j s :: back)).filterMap (Call.layered? lib k) =
      (front ++ .override j s :: (middle ++ back)).filterMap (Call.layered? lib k) := by
    simp [List.filterMap_cons, Call.layered?]
  have hoverridden : (front ++ (middle ++ .override j s :: back)).filterMap (Call.overridden? k) =
      (front ++ .override j s :: (middle ++ back)).filterMap (Call.overridden? k) := by
    by_cases hkj : k = j
    · subst hkj
      have hmiddle : middle.filterMap (Call.overridden? k) = [] := List.filterMap_eq_nil_iff.2 h
      simp [List.filterMap_cons, hmiddle]
    · simp [Call.overridden?, hkj]
  rw [resolved, resolved, lastLayered, lastLayered, hlayered, hoverridden]

theorem getLast?_filterMap_ne_none {α β : Type} {f : α → Option β} {as : List α} {a : α}
    (ha : a ∈ as) (h : f a ≠ none) : (as.filterMap f).getLast? ≠ none := by
  rw [Ne, List.getLast?_eq_none_iff]
  exact fun hnil => h (List.filterMap_eq_nil_iff.1 hnil a ha)

/-- A layer does not count for a setting that it does not set, nor for one that is overridden or set
by a later layer. -/
theorem resolved_shadowed {text : String}
    (h : (Call.toml text).layered? lib k = none ∨
      (∃ c ∈ front ++ back, c.overridden? k ≠ none) ∨ ∃ c ∈ back, c.layered? lib k ≠ none) :
    resolved lib (front ++ .toml text :: back) k = resolved lib (front ++ back) k := by
  have hoverridden : (front ++ .toml text :: back).filterMap (Call.overridden? k) =
      (front ++ back).filterMap (Call.overridden? k) := by
    simp [List.filterMap_cons, Call.overridden?]
  rw [resolved, resolved, hoverridden]
  rcases h with hnone | ⟨c, hc, hset⟩ | ⟨c, hc, hset⟩
  · have hlayered : (front ++ .toml text :: back).filterMap (Call.layered? lib k) =
        (front ++ back).filterMap (Call.layered? lib k) := by simp [hnone]
    rw [lastLayered, lastLayered, hlayered]
  · obtain ⟨v, hv⟩ := Option.ne_none_iff_exists'.1 (getLast?_filterMap_ne_none hc hset)
    rw [hv, Option.getD_some, Option.getD_some]
  · obtain ⟨v, hv⟩ := Option.ne_none_iff_exists'.1 (getLast?_filterMap_ne_none hc hset)
    have hbehind (calls : List Call) : lastLayered lib (calls ++ back) k = v := by
      rw [lastLayered, List.filterMap_append, List.getLast?_append, hv]
      rfl
    rw [List.append_cons, hbehind, hbehind]

/-- However layers and overrides follow one another, the settings are those of the last override of
each, or else of the last layer that sets it, or else the built-in ones, and they fail if one of
these values does not convert. So an override may be moved past layers; a layer leaves alone what it
does not set, and what it sets in vain does no harm; but a required file that is missing fails
anywhere. -/
theorem outcome_resolved (hlib : lib.Documented) (h : ∀ c ∈ calls, c.Ordinary lib files) :
    outcome lib files calls =
      (ofSettings lib.toConversions (resolved lib calls)).mapError .misfit ∧
    ((∃ e, outcome lib files calls = .error e) ↔
      ∃ k : Setting, k.converts lib.toConversions (resolved lib calls k) = false) ∧
    (∀ front middle back j s, calls = front ++ .override j s :: (middle ++ back) →
      (∀ c ∈ middle, c.overridden? j = none) →
      outcome lib files (front ++ (middle ++ .override j s :: back)) = outcome lib files calls) ∧
    (∀ front text back k, calls = front ++ .toml text :: back →
      (Call.toml text).layered? lib k = none ∨
        (∃ c ∈ front ++ back, c.overridden? k ≠ none) ∨ (∃ c ∈ back, c.layered? lib k ≠ none) →
      resolved lib calls k = resolved lib (front ++ back) k) ∧
    ∀ front back name, calls = front ++ back → Missing lib files name →
      outcome lib files (front ++ .file true name :: back) = .error (.missingFile name) := by
  have hfail {x : Except Misfit Settings} :
      (∃ e, x.mapError Error.misfit = .error e) ↔ ∃ e, x = .error e := by
    cases x <;> simp [Except.mapError]
  refine ⟨outcome_eq hlib h, ?_, ?_, ?_, ?_⟩
  · rw [outcome_eq hlib h, hfail, ofSettings_eq_error_iff]
  · rintro front middle back j s rfl hmiddle
    have hmoved : ∀ c ∈ front ++ (middle ++ .override j s :: back), c.Ordinary lib files := by
      intro c hc
      exact h c (by grind)
    rw [outcome_eq hlib h, outcome_eq hlib hmoved, funext (resolved_moved hmiddle)]
  · rintro front text back k rfl hk
    exact resolved_shadowed hk
  · rintro front back name rfl hmissing
    obtain ⟨hfront, hback⟩ := List.forall_mem_append.1 h
    exact outcome_of_missing hlib hfront hback hmissing

/-- A number is no format, but it stands below one that is; and the override comes first. One more
override has 65 bits, and nothing is built. -/
theorem outcome_resolved_shadowed :
    let files : Files := ⟨fun _ => false, fun _ => .error .missing⟩
    let below := Call.toml "output.format=7"
    let above := Call.toml "output.format='tree'"
    let override := Call.override .trailingNewlines (.int 5)
    let wide := Call.override .trailingNewlines (.integer ⟨.u128, Nat.pow 2 64, by decide⟩)
    let calls := [override, below, .file false "a", above]
    Library.standard.Documented ∧ (∀ c ∈ calls, c.Ordinary .standard files) ∧
    Setting.format.converts Library.standard.toConversions (.leaf none (.int 7)) = false ∧
    outcome .standard files calls = .ok ⟨⟨5, true⟩, "default", .tree⟩ ∧
    outcome .standard files [below, .file false "a", above, override] =
      outcome .standard files calls ∧
    resolved .standard calls .format =
      resolved .standard [override, .file false "a", above] .format ∧
    outcome .standard files [override, .file true "b", below, .file false "a", above] =
      .error (.missingFile "b") ∧
    ∃ e, outcome .standard files (calls ++ [wide]) = .error e := by
  intro files below above override wide calls
  have hbelow : Toml.parse? none "output.format=7" =
      some [("output", .table none [("format", .leaf none (.int 7))])] := by decide +kernel
  have habove : Toml.parse? none "output.format='tree'" =
      some [("output", .table none [("format", .leaf none (.text "tree"))])] := by decide +kernel
  have hplain (s : Scalar) :
      Library.standard.Plain [("output", .table none [("format", .leaf none s)])] := by
    intro f hf
    obtain rfl := List.mem_singleton.1 hf
    refine .inl ⟨.output, none, _, rfl, fun f hf => ?_⟩
    obtain rfl := List.mem_singleton.1 hf
    exact .inl ⟨.format, rfl, none, s, rfl⟩
  have hmissing (name : String) : Missing .standard files name :=
    fileText_of_missing fun _ _ => rfl
  have hcalls : ∀ c ∈ calls, c.Ordinary .standard files := by
    simp only [calls, List.forall_mem_cons]
    exact ⟨trivial, ⟨_, hbelow, hplain _⟩, ⟨rfl, hmissing "a"⟩, ⟨_, habove, hplain _⟩, by simp⟩
  have hlib := Library.standard_documented
  obtain ⟨hbuilt, -, hmoved, hshadowed, hfile⟩ := outcome_resolved hlib hcalls
  have hparse : Library.standard.parse? = Toml.parse? := rfl
  have hvalues : resolved .standard calls = fun k => .leaf none <|
      if k = .trailingNewlines then .int 5
      else if k = .format then .text "tree"
      else k.default := by
    funext k
    simp only [resolved, lastLayered, calls, below, above, override, List.filterMap_cons,
      List.filterMap_nil, Call.overridden?, Call.layered?, hparse, hbelow, habove,
      Option.bind_some]
    cases k <;> rfl
  refine ⟨hlib, hcalls, rfl, ?_, ?_, ?_, ?_, ?_⟩
  · rw [hbuilt, hvalues]
    rfl
  · exact hmoved [] [below, .file false "a", above] [] _ _ rfl
      (by simp [below, above, Call.overridden?])
  · refine hshadowed [override] "output.format=7" [.file false "a", above] .format rfl
      (.inr (.inr ⟨above, by simp, ?_⟩))
    rw [Call.layered?, hparse, habove]
    exact Option.some_ne_none (Value.leaf none (.text "tree"))
  · exact hfile [override] [below, .file false "a", above] "b" rfl (hmissing "b")
  · have hwide : ∀ c ∈ calls ++ [wide], c.Ordinary .standard files :=
      List.forall_mem_append.2 ⟨hcalls, by simp [wide, Call.Ordinary]⟩
    refine (outcome_resolved hlib hwide).2.1.2 ⟨.trailingNewlines, ?_⟩
    rw [resolved, getLast?_filterMap_concat]
    rfl

end SectionLexer.Settings.Loader
