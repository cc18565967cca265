import Mathlib.Data.List.Nodup
import SectionLexer.Toml.Document

/-! No table of a document holds a key twice: whatever a line adds, it adds under a new key or in
the place of what it adds to. -/
namespace SectionLexer

namespace Settings

section Put

variable {κ α : Type} [BEq κ] [LawfulBEq κ] {key : κ} {a : α} {fields : List (κ × α)} {f : κ × α}

theorem mem_put (h : f ∈ put key a fields) : f = (key, a) ∨ f ∈ fields := by
  induction fields with
  | nil => exact .inl (List.mem_singleton.1 h)
  | cons g fields ih =>
    obtain ⟨k, b⟩ := g
    rw [put] at h
    split at h
    · next hk =>
      obtain rfl := eq_of_beq hk
      exact (List.mem_cons.1 h).imp_right (List.mem_cons_of_mem _)
    · rcases List.mem_cons.1 h with rfl | h
      · exact .inr List.mem_cons_self
      · exact (ih h).imp_right (List.mem_cons_of_mem _)

theorem nodup_put (h : (fields.map Prod.fst).Nodup) : ((put key a fields).map Prod.fst).Nodup := by
  induction fields with
  | nil => simp [put]
  | cons g fields ih =>
    obtain ⟨k, b⟩ := g
    obtain ⟨hk, hfields⟩ := List.nodup_cons.1 h
    rw [put]
    split
    · exact h
    · next hne =>
      refine List.nodup_cons.2 ⟨fun hmem => ?_, ih hfields⟩
      obtain ⟨f, hf, rfl⟩ := List.mem_map.1 hmem
      rcases mem_put hf with rfl | hf
      · exact hne (beq_self_eq_true _)
      · exact hk (List.mem_map.2 ⟨f, hf, rfl⟩)

theorem mem_of_lookup (h : fields.lookup key = some a) : (key, a) ∈ fields := by
  obtain ⟨front, back, rfl, -⟩ := List.lookup_eq_some_iff.1 h
  simp

theorem lookup_eq_none_of_notMem (h : key ∉ fields.map Prod.fst) : fields.lookup key = none := by
  rw [List.lookup_eq_none_iff]
  intro f hf
  rw [bne_iff_ne]
  rintro rfl
  exact h (List.mem_map_of_mem hf)

end Put

/-- No key comes twice, nor twice in a table that stands under one. -/
def DistinctKeys (fields : List (String × Value)) : Prop :=
  (fields.map Prod.fst).Nodup ∧
    ∀ key o inner, (key, .table o inner) ∈ fields → (inner.map Prod.fst).Nodup

end Settings

namespace Toml

open Settings

variable {origin : Option String} {key : String} {path : List String} {item : Item}
  {fields out : Fields} {form : Form} {n : Nat}

/-- The tables that an item is or lists. -/
def Item.tablesOf : Item → List Fields
  | .inline fields | .table _ fields => [fields]
  | .tables elements => elements
  | _ => []

namespace Fields

/-- No key comes twice in a table, nor in the tables that stand less than `n` levels below it. -/
def Distinct : Nat → Fields → Prop
  | 0, _ => True
  | n + 1, fields => (fields.map Prod.fst).Nodup ∧ ∀ f ∈ fields, ∀ t ∈ f.2.tablesOf, Distinct n t

theorem distinct_nil : ∀ n, Distinct n []
  | 0 => trivial
  | _ + 1 => ⟨List.nodup_nil, by simp⟩

/-- An item can be put into a table if the tables that come with it are in order. -/
theorem Distinct.put (h : Distinct (n + 1) fields) (hitem : ∀ t ∈ item.tablesOf, Distinct n t) :
    Distinct (n + 1) (put key item fields) := by
  refine ⟨nodup_put h.1, fun f hf => ?_⟩
  rcases mem_put hf with rfl | hf
  · exact hitem
  · exact h.2 f hf

/-- Changing a table at the end of a path leaves the tables on the way in order. -/
theorem Distinct.within {made : Form} {change : Form → Fields → Option Fields}
    (hchange : ∀ n form fields out, Distinct n fields → change form fields = some out →
      Distinct n out)
    (h : Distinct n fields) (hout : within made change path form fields = some out) :
    Distinct n out := by
  induction path generalizing n form fields out with
  | nil => exact hchange n form fields out h hout
  | cons key path ih =>
    cases n with
    | zero => trivial
    | succ n =>
      rw [Fields.within] at hout
      split at hout
      · obtain ⟨inner, hinner, hout⟩ := Option.bind_eq_some_iff.1 hout
        obtain rfl := Option.some_inj.1 hout
        exact h.put (by simpa [Item.tablesOf] using ih (distinct_nil n) hinner)
      · next inner hlookup =>
        split at hout
        · cases hout
        · obtain ⟨changed, hchanged, hout⟩ := Option.bind_eq_some_iff.1 hout
          obtain rfl := Option.some_inj.1 hout
          have hbelow := h.2 _ (mem_of_lookup hlookup) inner (by simp [Item.tablesOf])
          exact h.put (by simpa [Item.tablesOf] using ih hbelow hchanged)
      · next elements hlookup =>
        obtain ⟨last, hlast, hout⟩ := Option.bind_eq_some_iff.1 hout
        obtain ⟨changed, hchanged, hout⟩ := Option.bind_eq_some_iff.1 hout
        obtain rfl := Option.some_inj.1 hout
        have hbelow := h.2 _ (mem_of_lookup hlookup)
        refine h.put fun t ht => ?_
        rcases List.mem_append.1 ht with ht | ht
        · exact hbelow t (List.dropLast_subset _ ht)
        · obtain rfl := List.mem_singleton.1 ht
          exact ih (hbelow last (List.mem_of_getLast? hlast)) hchanged
      · cases hout

end Fields

/-- No table of an item holds a key twice, at any depth. -/
def Item.Distinct (item : Item) : Prop := ∀ n, ∀ t ∈ item.tablesOf, Fields.Distinct n t

namespace Fields

theorem Distinct.add (hitem : item.Distinct) (h : Distinct n fields)
    (hout : add path key item form fields = some out) : Distinct n out := by
  refine h.within (fun m form fields out h hout => ?_) hout
  cases m with
  | zero => trivial
  | succ m =>
    split at hout
    · cases hout
    · obtain rfl := Option.some_inj.1 hout
      exact h.put (hitem m)

theorem Distinct.openTable (h : Distinct n fields) (hout : openTable path key fields = some out) :
    Distinct n out := by
  refine h.within (fun m form fields out h hout => ?_) hout
  cases m with
  | zero => trivial
  | succ m =>
    split at hout
    · obtain rfl := Option.some_inj.1 hout
      exact h.put (by simpa [Item.tablesOf] using distinct_nil m)
    · next inner hlookup =>
      -- the table becomes the last one, so its key is taken out first
      obtain rfl := Option.some_inj.1 hout
      have hbelow := h.2 _ (mem_of_lookup hlookup)
      refine ⟨?_, fun f hf => ?_⟩
      · rw [List.map_append, List.nodup_append]
        refine ⟨h.1.sublist (List.filter_sublist.map _), List.nodup_singleton _, ?_⟩
        simp
      · rcases List.mem_append.1 hf with hf | hf
        · exact h.2 f (List.mem_filter.1 hf).1
        · obtain rfl := List.mem_singleton.1 hf
          exact hbelow
    · cases hout

theorem Distinct.openElement (h : Distinct n fields)
    (hout : openElement path key fields = some out) : Distinct n out := by
  refine h.within (fun m form fields out h hout => ?_) hout
  cases m with
  | zero => trivial
  | succ m =>
    split at hout
    · obtain rfl := Option.some_inj.1 hout
      exact h.put (by simpa [Item.tablesOf] using distinct_nil m)
    · next elements hlookup =>
      obtain rfl := Option.some_inj.1 hout
      refine h.put fun t ht => ?_
      rcases List.mem_append.1 ht with ht | ht
      · exact h.2 _ (mem_of_lookup hlookup) t ht
      · obtain rfl := List.mem_singleton.1 ht
        exact distinct_nil m
    · cases hout

end Fields

/-- What every step keeps, a run keeps. -/
theorem foldlM_keeps {α β : Type} {P : β → Prop} {step : β → α → Option β} {as : List α} {b c : β}
    (hstep : ∀ b, P b → ∀ a ∈ as, ∀ c ∈ step b a, P c) (hb : P b)
    (hc : as.foldlM step b = some c) : P c := by
  induction as generalizing b with
  | nil => exact Option.some_inj.1 hc ▸ hb
  | cons a as ih =>
    rw [List.foldlM_cons] at hc
    obtain ⟨d, hd, hc⟩ := Option.bind_eq_some_iff.1 hc
    exact ih (fun b hb a ha => hstep b hb a (List.mem_cons_of_mem _ ha))
      (hstep b hb a List.mem_cons_self d hd) hc

theorem distinct_tableOf {pairs : List (Key × Item)} (hpairs : ∀ p ∈ pairs, p.2.Distinct)
    (h : tableOf pairs = some item) : item.Distinct := by
  obtain ⟨fields, hfields, h⟩ := Option.bind_eq_some_iff.1 h
  obtain rfl := Option.some_inj.1 h
  intro n t ht
  obtain rfl := List.mem_singleton.1 ht
  refine foldlM_keeps (P := Fields.Distinct n) ?_ (Fields.distinct_nil n) hfields
  exact fun b hb p hp c hc => hb.add (hpairs p hp) hc

theorem distinct_simple {s rest : List Char} (h : simple s = some (item, rest)) :
    item.Distinct := by
  rw [simple] at h
  split at h
  · cases h
    intro n t ht
    cases ht
  · obtain ⟨⟨x, s⟩, -, h⟩ := Option.map_eq_some_iff.1 h
    cases h
    intro n t ht
    cases ht

/-- The reader of values, by its fuel. Of an array nothing is asked, for it is no table. -/
theorem distinct_value (n : Nat) :
    (∀ depth s item rest, value n depth s = some (item, rest) → item.Distinct) ∧
    ∀ depth s pairs rest, inlinePairs n depth s = some (pairs, rest) →
      ∀ p ∈ pairs, p.2.Distinct := by
  induction n with
  | zero => exact ⟨by simp [value], by simp [inlinePairs]⟩
  | succ n ih =>
    obtain ⟨hvalue, hpairs⟩ := ih
    constructor
    · intro depth s item rest h
      rw [value.eq_def] at h
      split at h
      · cases h
      · simp only [Option.bind_eq_bind, Option.bind_none, Option.ite_none_left_eq_some] at h
        obtain ⟨⟨vs, s⟩, -, h⟩ := Option.bind_eq_some_iff.1 h.2
        cases h
        intro n t ht
        cases ht
      · next hn =>
        cases hn
        simp only [Option.bind_eq_bind, Option.bind_none, Option.bind_some,
          Option.ite_none_left_eq_some] at h
        obtain ⟨-, h⟩ := h
        split at h
        · obtain ⟨item, hitem, h⟩ := Option.bind_eq_some_iff.1 h
          cases h
          exact distinct_tableOf (by simp) hitem
        · obtain ⟨⟨pairs, s⟩, hread, h⟩ := Option.bind_eq_some_iff.1 h
          obtain ⟨item, hitem, h⟩ := Option.bind_eq_some_iff.1 h
          cases h
          exact distinct_tableOf (hpairs _ _ pairs s hread) hitem
      · exact distinct_simple h
    · intro depth s pairs rest h
      rw [inlinePairs] at h
      obtain ⟨⟨k, s⟩, -, h⟩ := Option.bind_eq_some_iff.1 h
      dsimp only at h
      split at h
      · obtain ⟨⟨v, s⟩, hread, h⟩ := Option.bind_eq_some_iff.1 h
        have hv : v.Distinct := hvalue _ _ v s hread
        dsimp only at h
        split at h
        · obtain ⟨⟨more, s⟩, hmore, h⟩ := Option.bind_eq_some_iff.1 h
          cases h
          exact List.forall_mem_cons.2 ⟨hv, hpairs _ _ more s hmore⟩
        · cases h
          simpa using hv
        · cases h
      · cases h

theorem distinct_line {k : Key} {s rest : List Char} (h : line s = some (.pair k item, rest)) :
    item.Distinct := by
  rw [line] at h
  split at h
  · obtain ⟨⟨k, s⟩, -, h⟩ := Option.bind_eq_some_iff.1 h
    split at h
    · obtain ⟨s, -, h⟩ := Option.bind_eq_some_iff.1 h
      cases h
    · cases h
  · obtain ⟨⟨k, s⟩, -, h⟩ := Option.bind_eq_some_iff.1 h
    split at h
    · obtain ⟨s, -, h⟩ := Option.bind_eq_some_iff.1 h
      cases h
    · cases h
  · split at h
    · cases h
    · obtain ⟨⟨k, s⟩, -, h⟩ := Option.bind_eq_some_iff.1 h
      dsimp only at h
      split at h
      · obtain ⟨⟨v, s⟩, hread, h⟩ := Option.bind_eq_some_iff.1 h
        obtain ⟨s, -, h⟩ := Option.bind_eq_some_iff.1 h
        cases h
        exact (distinct_value _).1 _ _ v _ hread
      · cases h

theorem distinct_lines {n : Nat} {s : List Char} {ls : List Line} (h : lines n s = some ls)
    {k : Key} (hl : .pair k item ∈ ls) : item.Distinct := by
  induction n generalizing s ls with
  | zero =>
    cases s <;> cases h
    cases hl
  | succ n ih =>
    cases s with
    | nil =>
      cases h
      cases hl
    | cons c s =>
      obtain ⟨⟨l, s⟩, hline, h⟩ := Option.bind_eq_some_iff.1 h
      obtain ⟨more, hmore, h⟩ := Option.bind_eq_some_iff.1 h
      cases h
      rcases List.mem_cons.1 hl with rfl | hl
      · exact distinct_line hline
      · exact ih hmore hl

/-- One line. -/
theorem distinct_take {d e : Draft} {l : Line} (hl : ∀ k item, l = .pair k item → item.Distinct)
    (hd : ∀ n, d.fields.Distinct n) (h : d.take l = some e) (n : Nat) : e.fields.Distinct n := by
  cases l with
  | void =>
    cases h
    exact hd n
  | header key =>
    obtain ⟨fields, hfields, h⟩ := Option.bind_eq_some_iff.1 h
    cases h
    exact (hd n).openTable hfields
  | elementHeader key =>
    obtain ⟨fields, hfields, h⟩ := Option.bind_eq_some_iff.1 h
    cases h
    exact (hd n).openElement hfields
  | pair key item =>
    obtain ⟨fields, hfields, h⟩ := Option.bind_eq_some_iff.1 h
    cases h
    exact (hd n).within (fun _ _ _ _ hm hadd => hm.add (hl key item rfl) hadd) hfields

/-- The values of fields stand under the keys of the fields. -/
theorem fieldValues?_eq_some {values : List (String × Value)}
    (h : fieldValues? origin fields = some values) :
    values.map Prod.fst = fields.map Prod.fst ∧
      ∀ f ∈ values, ∃ item, (f.1, item) ∈ fields ∧ item.value? origin = some f.2 := by
  induction fields generalizing values with
  | nil =>
    cases h
    exact ⟨rfl, by simp⟩
  | cons f fields ih =>
    obtain ⟨k, item⟩ := f
    obtain ⟨v, hv, h⟩ := Option.bind_eq_some_iff.1 h
    obtain ⟨more, hmore, h⟩ := Option.bind_eq_some_iff.1 h
    cases h
    obtain ⟨hkeys, hvalues⟩ := ih hmore
    refine ⟨by simp [hkeys], List.forall_mem_cons.2 ⟨⟨item, List.mem_cons_self, hv⟩, ?_⟩⟩
    intro f hf
    obtain ⟨item, hitem, hf⟩ := hvalues f hf
    exact ⟨item, List.mem_cons_of_mem _ hitem, hf⟩

/-- A value that is a table is the value of one, field by field. -/
theorem exists_of_value?_eq_table {o : Option String} {values : List (String × Value)}
    (h : item.value? origin = some (.table o values)) :
    ∃ inner ∈ item.tablesOf, fieldValues? origin inner = some values := by
  have hfields {inner : Fields}
      (h : Fields.value? origin inner (fieldValues? origin inner) = some (.table o values)) :
      fieldValues? origin inner = some values := by
    rw [Fields.value?] at h
    split at h
    · obtain ⟨m, -, h⟩ := Option.map_eq_some_iff.1 h
      cases h
    · obtain ⟨values, hvalues, h⟩ := Option.map_eq_some_iff.1 h
      cases h
      exact hvalues
  cases item with
  | scalar x => cases h
  | moment m => cases h
  | array items =>
    obtain ⟨vs, -, h⟩ := Option.map_eq_some_iff.1 h
    cases h
  | inline inner => exact ⟨inner, List.mem_singleton.2 rfl, hfields h⟩
  | table form inner => exact ⟨inner, List.mem_singleton.2 rfl, hfields h⟩
  | tables elements =>
    obtain ⟨vs, -, h⟩ := Option.map_eq_some_iff.1 h
    cases h

/-- A document holds each of its keys once, and so does each of its tables. -/
theorem parse?_distinct {text : String} {layer : List (String × Value)}
    (h : parse? origin text = some layer) : DistinctKeys layer := by
  obtain ⟨ls, hls, h⟩ := Option.bind_eq_some_iff.1 h
  obtain ⟨draft, hdraft, h⟩ := Option.bind_eq_some_iff.1 h
  have hdistinct : ∀ n, draft.fields.Distinct n := by
    refine foldlM_keeps (P := fun d : Draft => ∀ n, d.fields.Distinct n) ?_ Fields.distinct_nil
      hdraft
    rintro d hd l hl e he
    refine distinct_take ?_ hd he
    rintro k item rfl
    exact distinct_lines hls hl
  split at h
  · cases h
  · obtain ⟨hkeys, hvalues⟩ := fieldValues?_eq_some h
    refine ⟨hkeys ▸ (hdistinct 1).1, fun k o values hmem => ?_⟩
    obtain ⟨item, hitem, hvalue⟩ := hvalues _ hmem
    obtain ⟨inner, hinner, hinner'⟩ := exists_of_value?_eq_table hvalue
    rw [(fieldValues?_eq_some hinner').1]
    exact ((hdistinct 2).2 _ hitem inner hinner).1

end Toml

end SectionLexer
