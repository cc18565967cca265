import Mathlib.Data.List.Induction
import Mathlib.Data.List.Nodup
import SectionLexer.Registry

/-! A registry after any registrations: for each name the configuration that was registered last, in
the order of the names; and what is executed is what is listed. -/
namespace SectionLexer

variable {r : Registry} {c d : Configuration} {cs ds history : List Configuration} {name : String}

/-- No other configuration of its name comes behind it. -/
def Configuration.IsLast (c : Configuration) (history : List Configuration) : Prop :=
  ∃ before after, history = before ++ c :: after ∧ ∀ d ∈ after, d.name ≠ c.name

namespace Configuration

theorem IsLast.mem (h : c.IsLast history) : c ∈ history := by
  obtain ⟨before, after, rfl, -⟩ := h
  simp

theorem isLast_concat :
    d.IsLast (history ++ [c]) ↔ d = c ∨ d.IsLast history ∧ d.name ≠ c.name := by
  constructor
  · rintro ⟨before, after, hsplit, hafter⟩
    rcases List.eq_nil_or_concat after with rfl | ⟨after, e, rfl⟩
    · obtain ⟨-, hd⟩ := List.append_inj' hsplit rfl
      exact .inl (List.singleton_inj.1 hd).symm
    · rw [List.concat_eq_append, ← List.cons_append, ← List.append_assoc] at hsplit
      obtain ⟨rfl, he⟩ := List.append_inj' hsplit rfl
      obtain rfl := List.singleton_inj.1 he
      refine .inr ⟨⟨before, after, rfl, fun f hf => hafter f (by simp [hf])⟩, ?_⟩
      exact (hafter c (by simp)).symm
  · rintro (rfl | ⟨⟨before, after, rfl, hafter⟩, hne⟩)
    · exact ⟨history, [], rfl, by simp⟩
    · refine ⟨before, after ++ [c], by simp, fun e he => ?_⟩
      rcases List.mem_append.1 he with he | he
      · exact hafter e he
      · exact List.mem_singleton.1 he ▸ hne.symm

/-- Where no name comes twice, every configuration is the last of its name. -/
theorem isLast_iff_mem (h : history.Pairwise fun c d => c.name < d.name) :
    c.IsLast history ↔ c ∈ history := by
  refine ⟨IsLast.mem, fun hc => ?_⟩
  obtain ⟨before, after, rfl⟩ := List.append_of_mem hc
  obtain ⟨-, hafter, -⟩ := List.pairwise_append.1 h
  refine ⟨before, after, rfl, fun d hd => ?_⟩
  exact (String.ne_of_lt ((List.pairwise_cons.1 hafter).1 d hd)).symm

/-- Every name that comes at all has a last configuration. -/
theorem exists_isLast (h : name ∈ history.map Configuration.name) :
    ∃ c : Configuration, c.IsLast history ∧ c.name = name := by
  induction history using List.reverseRecOn with
  | nil => cases h
  | append_singleton history d ih =>
    by_cases hd : d.name = name
    · exact ⟨d, isLast_concat.2 (.inl rfl), hd⟩
    · have hname : name ∈ history.map Configuration.name := by simpa [Ne.symm hd] using h
      obtain ⟨c, hc, rfl⟩ := ih hname
      exact ⟨c, isLast_concat.2 (.inr ⟨hc, Ne.symm hd⟩), rfl⟩

end Configuration

namespace Registry

/-- Registers configurations one after the other. -/
def registerAll (r : Registry) (cs : List Configuration) : Registry := cs.foldl register r

theorem registerAll_concat (r : Registry) (cs : List Configuration) (c : Configuration) :
    r.registerAll (cs ++ [c]) = (r.registerAll cs).register c := by simp [registerAll]

theorem mem_insert_iff (h : ds.Pairwise fun c d => c.name < d.name) :
    d ∈ insert c ds ↔ d = c ∨ d ∈ ds ∧ d.name ≠ c.name := by
  induction ds with
  | nil => simp [insert]
  | cons e ds ih =>
    obtain ⟨he, hds⟩ := List.pairwise_cons.1 h
    rw [insert]
    split
    · next hlt =>
      have hne : ∀ f ∈ e :: ds, f.name ≠ c.name := by
        intro f hf
        rcases List.mem_cons.1 hf with rfl | hf
        · exact (String.ne_of_lt hlt).symm
        · exact (String.ne_of_lt (String.lt_trans hlt (he f hf))).symm
      rw [List.mem_cons]
      exact or_congr_right ⟨fun hd => ⟨hd, hne d hd⟩, And.left⟩
    · split
      · next heq =>
        have hne : ∀ f ∈ ds, f.name ≠ c.name := by
          intro f hf
          rw [heq]
          exact (String.ne_of_lt (he f hf)).symm
        rw [List.mem_cons, List.mem_cons]
        refine or_congr_right ⟨fun hd => ⟨.inr hd, hne d hd⟩, ?_⟩
        rintro ⟨rfl | hd, hname⟩
        · exact absurd heq.symm hname
        · exact hd
      · next hne =>
        rw [List.mem_cons, ih hds, List.mem_cons]
        constructor
        · rintro (rfl | hd | ⟨hd, hname⟩)
          · exact .inr ⟨.inl rfl, Ne.symm hne⟩
          · exact .inl hd
          · exact .inr ⟨.inr hd, hname⟩
        · rintro (hd | ⟨hd | hd, hname⟩)
          · exact .inr (.inl hd)
          · exact .inl hd
          · exact .inr (.inr ⟨hd, hname⟩)

/-- One registration: the configuration is listed, and so is what has another name. -/
theorem Ascending.mem_register_iff (h : r.Ascending) :
    d ∈ (r.register c).entries ↔ d = c ∨ d ∈ r.entries ∧ d.name ≠ c.name := mem_insert_iff h

theorem Ascending.registerAll (h : r.Ascending) (cs : List Configuration) :
    (r.registerAll cs).Ascending := by
  induction cs using List.reverseRecOn with
  | nil => exact h
  | append_singleton cs c ih =>
    rw [registerAll_concat]
    exact ih.register c

theorem ascending_defaults : Ascending defaults := ascending_empty.registerAll _

/-- All registrations. -/
theorem Ascending.mem_registerAll_iff (h : r.Ascending) (cs : List Configuration) :
    c ∈ (r.registerAll cs).entries ↔ c.IsLast (r.entries ++ cs) := by
  induction cs using List.reverseRecOn with
  | nil =>
    rw [List.append_nil]
    exact (Configuration.isLast_iff_mem h).symm
  | append_singleton cs d ih =>
    rw [registerAll_concat, (h.registerAll cs).mem_register_iff, ih, ← List.append_assoc,
      Configuration.isLast_concat]

theorem Ascending.eq_of_name (h : r.Ascending) (hc : c ∈ r.entries) (hd : d ∈ r.entries)
    (hname : c.name = d.name) : c = d := by
  have hnodup : (r.entries.map Configuration.name).Nodup :=
    List.pairwise_map.2 (h.imp String.ne_of_lt)
  exact List.inj_on_of_nodup_map hnodup hc hd hname

theorem Ascending.get?_eq_some_iff (h : r.Ascending) :
    r.get? name = some c ↔ c ∈ r.entries ∧ c.name = name := by
  constructor
  · intro hget
    exact ⟨List.mem_of_find?_eq_some hget, by simpa using List.find?_some hget⟩
  · rintro ⟨hc, rfl⟩
    cases hget : r.get? c.name with
    | none => simpa using List.find?_eq_none.1 hget c hc
    | some d =>
      have hname : d.name = c.name := by simpa using List.find?_some hget
      rw [h.eq_of_name (List.mem_of_find?_eq_some hget) hc hname]

theorem get?_eq_none_iff : r.get? name = none ↔ name ∉ r.entries.map Configuration.name := by
  simp [get?]

theorem has_iff : r.has name = true ↔ name ∈ r.entries.map Configuration.name := by
  rw [has, ← not_iff_not, ← get?_eq_none_iff]
  simp

theorem outcome_of_get?_eq_none (h : r.get? name = none) (o : Options) (source path : String) :
    r.execute o name source path = .error ⟨name⟩ ∧
      ∀ format, r.render o name source path format = .error ⟨name⟩ := by
  have hexecute : r.execute o name source path = .error ⟨name⟩ := by rw [execute, h]
  exact ⟨hexecute, fun format => by rw [render, hexecute, Except.map]⟩

theorem outcome_of_get?_eq_some (h : r.get? name = some c) (o : Options) (source path : String) :
    let s := lexUpTo c.last source path o
    r.execute o name source path = .ok s ∧
      ∀ format, r.render o name source path format = .ok (format.render s.tokens, s) := by
  intro s
  have hexecute : r.execute o name source path = .ok s := by rw [execute, h]
  exact ⟨hexecute, fun format => by rw [render, hexecute, Except.map]⟩

/-- However many configurations are registered on top of none or of those that are always there: the
registry lists for each name the last one, in the order of the names; a look-up finds what is
listed; and a name is executed, with or without writing the tokens, as its listed configuration
says, or refused because it has none. -/
theorem registrations_last_listed {start : Registry} (hstart : start = empty ∨ start = defaults)
    (cs : List Configuration) :
    let history := start.entries ++ cs
    let r := start.registerAll cs
    let listed := r.entries.map Configuration.name
    r.entries.Pairwise (fun c d => c.name < d.name) ∧
    (∀ c, c ∈ r.entries ↔ c.IsLast history) ∧
    (∀ name ∈ history.map Configuration.name, ∃! c, c ∈ r.entries ∧ c.name = name) ∧
    (∀ name c, r.get? name = some c ↔ c ∈ r.entries ∧ c.name = name) ∧
    (∀ name, r.has name = true ↔ name ∈ listed) ∧
    ∀ o name source path,
      (r.execute o name source path = .error ⟨name⟩ ↔ name ∉ listed) ∧
      (∀ format, r.render o name source path format = .error ⟨name⟩ ↔ name ∉ listed) ∧
      ∀ c ∈ r.entries, c.name = name →
        let s := lexUpTo c.last source path o
        r.execute o name source path = .ok s ∧
        ∀ format, r.render o name source path format = .ok (format.render s.tokens, s) := by
  intro history r listed
  have hascending : start.Ascending := by
    rcases hstart with rfl | rfl
    · exact ascending_empty
    · exact ascending_defaults
  have hr : r.Ascending := hascending.registerAll cs
  have hlast (c : Configuration) : c ∈ r.entries ↔ c.IsLast history :=
    hascending.mem_registerAll_iff cs
  refine ⟨hr, hlast, fun name hname => ?_, fun name c => hr.get?_eq_some_iff, fun name => has_iff,
    fun o name source path => ?_⟩
  · obtain ⟨c, hc, rfl⟩ := Configuration.exists_isLast hname
    refine ⟨c, ⟨(hlast c).2 hc, rfl⟩, fun d hd => ?_⟩
    exact hr.eq_of_name hd.1 ((hlast c).2 hc) hd.2
  · have hlisted : name ∉ listed ↔ r.get? name = none := get?_eq_none_iff.symm
    rw [hlisted]
    cases hget : r.get? name with
    | none =>
      obtain ⟨hexecute, hrender⟩ := outcome_of_get?_eq_none hget o source path
      refine ⟨by simp [hexecute], by simp [hrender], fun c hc hname => ?_⟩
      cases hget.symm.trans (hr.get?_eq_some_iff.2 ⟨hc, hname⟩)
    | some d =>
      obtain ⟨hexecute, hrender⟩ := outcome_of_get?_eq_some hget o source path
      refine ⟨by simp [hexecute], by simp [hrender], fun c hc hname => ?_⟩
      obtain rfl : d = c := Option.some_inj.1 (hget.symm.trans (hr.get?_eq_some_iff.2 ⟨hc, hname⟩))
      exact ⟨hexecute, hrender⟩

/-- A name that is always there, registered twice more, and a name that nothing is registered
under. -/
theorem registrations_last_listed_replaced :
    let again : Configuration := ⟨"default", "Once more", .indent⟩
    let r := defaults.registerAll [⟨"a", "", .scan⟩, ⟨"default", "Once", .scan⟩, again]
    (defaults = empty ∨ defaults = defaults) ∧
    again ∈ r.entries ∧ r.get? "default" = some again ∧
    (∀ o source path,
      r.execute o "default" source path = .ok (lexUpTo .indent source path o)) ∧
    "b" ∉ r.entries.map Configuration.name ∧
    r.render {} "b" "" "" .tree = .error ⟨"b"⟩ := by
  intro again r
  obtain ⟨-, hlast, -, hget, hhas, hexecute⟩ := registrations_last_listed (.inr rfl)
    [⟨"a", "", .scan⟩, ⟨"default", "Once", .scan⟩, again]
  have hagain : again ∈ r.entries := (hlast again).2
    ⟨defaults.entries ++ [⟨"a", "", .scan⟩, ⟨"default", "Once", .scan⟩], [], by simp, by simp⟩
  have hb : "b" ∉ r.entries.map Configuration.name := by decide +kernel
  refine ⟨.inr rfl, hagain, (hget _ _).2 ⟨hagain, rfl⟩, fun o source path => ?_, hb, ?_⟩
  · exact ((hexecute o "default" source path).2.2 again hagain rfl).1
  · exact ((hexecute {} "b" "" "").2.1 .tree).2 hb

end Registry

end SectionLexer
