import SectionLexer.Proofs.Frames
import SectionLexer.Proofs.Kinds

/-! Where frames open: in which open frames, and between which tokens. -/
namespace SectionLexer

variable {f : Frame} {stack : List Frame} {before ks : List Kind} {ts : List Token} {t : Token}
  {p : Position}

/-- The open frames after tokens of the given kinds. A closing mark that is not that of the
innermost frame leads nowhere. -/
def replay? : List Frame → List Kind → Option (List Frame)
  | stack, [] => some stack
  | stack, .opening f :: ks => replay? (f :: stack) ks
  | [], .closing _ :: _ => none
  | g :: stack, .closing f :: ks => if g = f then replay? stack ks else none
  | stack, _ :: ks => replay? stack ks

namespace Frame

/-- The frames that a frame may open directly in, or that it opens outside of all frames. -/
def MayOpenIn (outer : Option Frame) : Frame → Prop
  | topLevelGroup => outer = none
  | sect => outer ∈ [some topLevelGroup, some argumentGroup, some argument]
  | argumentGroup => outer = some argument
  | argument => outer ≠ some argumentGroup

/-- The tokens around an opening mark: behind that of a section stands the header of the section,
that of a group stands between those of its argument and of its first section. -/
def MayOpenBetween (before after : List Kind) : Frame → Prop
  | sect => [Kind.name, .colon] <+: after
  | argumentGroup => [Kind.opening argument] <:+ before ∧ [Kind.opening sect] <+: after
  | topLevelGroup | argument => True

end Frame

/-- Every frame among tokens of kinds `ks` opens where it may, and closes while it is the innermost
one, in the open frames `stack` and behind the kinds `before`. -/
def InPlace : (before : List Kind) → List Frame → (ks : List Kind) → Prop
  | _, _, [] => True
  | before, stack, .opening f :: ks =>
    f.MayOpenIn stack.head? ∧ f.MayOpenBetween before ks ∧
      InPlace (before ++ [.opening f]) (f :: stack) ks
  | before, stack, .closing f :: ks =>
    ∃ below, stack = f :: below ∧ InPlace (before ++ [.closing f]) below ks
  | before, stack, k :: ks => InPlace (before ++ [k]) stack ks

theorem InPlace.unmarked {k : Kind} (hk : k.frame? = none) (h : InPlace (before ++ [k]) stack ks) :
    InPlace before stack (k :: ks) := by
  cases k <;> first | exact h | cases hk

theorem InPlace.after {before' : List Kind} {stack' : List Frame} {k : Kind}
    (h : InPlace before' stack' (before ++ k :: ks)) :
    ∃ stack, replay? stack' before = some stack ∧
      InPlace (before' ++ before) stack (k :: ks) := by
  induction before generalizing before' stack' with
  | nil => exact ⟨stack', by cases stack' <;> rfl, by simpa using h⟩
  | cons l before ih =>
    have hshift : before' ++ l :: before = before' ++ [l] ++ before := by simp
    rw [hshift]
    cases l with
    | opening g =>
      obtain ⟨-, -, hrest⟩ := h
      obtain ⟨stack, hreplay, hin⟩ := ih hrest
      exact ⟨stack, by cases stack' <;> exact hreplay, hin⟩
    | closing g =>
      obtain ⟨below, rfl, hrest⟩ := h
      obtain ⟨stack, hreplay, hin⟩ := ih hrest
      exact ⟨stack, by simpa [replay?] using hreplay, hin⟩
    | _ =>
      obtain ⟨stack, hreplay, hin⟩ := ih h
      exact ⟨stack, by cases stack' <;> exact hreplay, hin⟩

/-! The shape of the stack: every open frame opened where it may. -/

def Stacked : List Frame → Prop
  | [] => True
  | f :: below => f.MayOpenIn below.head? ∧ Stacked below

theorem Stacked.nil_of_group {below : List Frame} (h : Stacked (.topLevelGroup :: below)) :
    below = [] := List.head?_eq_none_iff.1 h.1

theorem Stacked.argument_of_group {below : List Frame} (h : Stacked (.argumentGroup :: below)) :
    ∃ outer, below = .argument :: outer := List.head?_eq_some_iff.1 h.1

/-- The innermost frames are those of an argument, or no argument is open. -/
theorem Stacked.shape (h : Stacked stack) (htop : stack.head? ≠ some .argumentGroup) :
    stack = [] ∨ stack = [.topLevelGroup] ∨ stack = [.sect, .topLevelGroup] ∨
      ∃ b below, IsArgument b ∧ Stacked below ∧ below.head? ≠ some .argumentGroup ∧
        stack = b ++ below := by
  match stack, h with
  | [], _ => exact .inl rfl
  | .topLevelGroup :: below, h => exact .inr (.inl (by rw [h.nil_of_group]))
  | .argumentGroup :: below, _ => exact absurd rfl htop
  | .argument :: below, h =>
    exact .inr (.inr (.inr ⟨[.argument], below, by simp [IsArgument], h.2, h.1, rfl⟩))
  | .sect :: [], h => exact absurd h.1 (by simp [Frame.MayOpenIn])
  | .sect :: .sect :: below, h => exact absurd h.1 (by simp [Frame.MayOpenIn])
  | .sect :: .topLevelGroup :: below, h =>
    exact .inr (.inr (.inl (by rw [Stacked.nil_of_group h.2])))
  | .sect :: .argument :: below, h =>
    exact .inr (.inr (.inr ⟨[.sect, .argument], below, by simp [IsArgument], h.2.2, h.2.1, rfl⟩))
  | .sect :: .argumentGroup :: below, h =>
    obtain ⟨outer, rfl⟩ := Stacked.argument_of_group h.2
    exact .inr (.inr (.inr ⟨[.sect, .argumentGroup, .argument], outer, by simp [IsArgument],
      h.2.2.2, h.2.2.1, rfl⟩))

theorem Stacked.closingArgument (h : Stacked stack) (htop : stack.head? ≠ some .argumentGroup)
    (p : Position) : Stacked (Edit.closingArgument p stack).2 ∧
      (Edit.closingArgument p stack).2.head? ≠ some .argumentGroup := by
  rcases h.shape htop with rfl | rfl | rfl | ⟨b, below, hb, hbelow, htop', rfl⟩
  · exact ⟨h, htop⟩
  · exact ⟨h, htop⟩
  · exact ⟨h.2, by simp [Edit.closingArgument, Edit.andThen, Edit.closing]⟩
  · rw [closingArgument_append hb]
    exact ⟨hbelow, htop'⟩

theorem Stacked.header (h : Stacked stack) : Stacked (.sect :: belowSection stack) := by
  match stack, h with
  | [], _ => exact ⟨by simp [belowSection, Frame.MayOpenIn], rfl, trivial⟩
  | .sect :: below, h => exact ⟨h.1, h.2⟩
  | .topLevelGroup :: below, h | .argumentGroup :: below, h | .argument :: below, h =>
    exact ⟨by simp [belowSection, Frame.MayOpenIn], h⟩

theorem Stacked.openingArgument (h : Stacked stack) (htop : stack.head? ≠ some .argumentGroup)
    (p : Position) (header : Bool) :
    Stacked (Edit.openingArgument p header stack).2 ∧
      ((Edit.openingArgument p header stack).2.head? = some .argumentGroup → header = true) := by
  cases header with
  | false => exact ⟨⟨htop, h⟩, fun hg => nomatch hg⟩
  | true => exact ⟨⟨rfl, htop, h⟩, fun _ => rfl⟩

/-! What is written keeps to the places, whatever is in place behind it. -/

namespace Edit

/-- What is in place in the frames that an edit leaves is in place behind its tokens. -/
def Places (a : Edit) (stack : List Frame) : Prop :=
  ∀ ks before, (∀ before, InPlace before (a stack).2 ks) →
    InPlace before stack ((a stack).1.map Token.kind ++ ks)

theorem closing_places (f : Frame) (p : Position) (stack : List Frame) :
    (closing f p).Places stack := by
  intro ks before h
  cases stack with
  | nil => exact h before
  | cons g below =>
    by_cases hg : g = f
    · subst hg
      simp only [closing, if_true] at h ⊢
      exact ⟨below, rfl, h _⟩
    · simp only [closing, if_neg hg] at h ⊢
      exact h before

theorem closingAll_places (p : Position) (stack : List Frame) : (closingAll p).Places stack := by
  intro ks before h
  induction stack generalizing before with
  | nil => exact h before
  | cons f below ih => exact ⟨below, rfl, ih _ h⟩

theorem andThen_places {a b : Edit} (ha : a.Places stack) (hb : b.Places (a stack).2) :
    (a.andThen b).Places stack := by
  intro ks before h
  simp only [andThen, List.map_append, List.append_assoc]
  exact ha _ before fun before' => hb ks before' h

theorem closingArgument_places (p : Position) (stack : List Frame) :
    (closingArgument p).Places stack :=
  andThen_places (andThen_places (closing_places .sect p _) (closing_places .argumentGroup p _))
    (closing_places .argument p _)

/-- A group needs the mark of its first section right behind its own. -/
theorem openingArgument_inPlace (htop : stack.head? ≠ some .argumentGroup) {header : Bool}
    (hks : header = true → [.opening .sect] <+: ks)
    (h : ∀ before, InPlace before (openingArgument p header stack).2 ks) :
    InPlace before stack ((openingArgument p header stack).1.map Token.kind ++ ks) := by
  cases header with
  | false => exact ⟨htop, trivial, h _⟩
  | true => exact ⟨htop, trivial, rfl, ⟨List.suffix_append _ _, hks rfl⟩, h _⟩

end Edit

namespace Cue

variable {c : Cue} {cs : List Cue}

theorem header_inPlace {name colon : Token} (hfit : (header name colon).Fits)
    (hs : Stacked stack) (h : ∀ before, InPlace before (.sect :: belowSection stack) ks)
    (b : Bool) : InPlace before stack
      (((header name colon).edit b stack).1.map Token.kind ++ ks) := by
  obtain ⟨hname, hcolon⟩ := hfit
  have hsect : Frame.sect.MayOpenIn (belowSection stack).head? := hs.header.1
  have hheader (before : List Kind) : InPlace before (belowSection stack)
      (.opening .sect :: .name :: .colon :: ks) :=
    ⟨hsect, ⟨ks, rfl⟩, h _⟩
  -- what is closed and opened in front of the section
  let entry : Edit := (Edit.when stack.isEmpty (Edit.opening .topLevelGroup name.position)).andThen
    (Edit.closing .sect name.position)
  have hentry : entry.Places stack := by
    apply Edit.andThen_places
    · cases stack with
      | nil => exact fun ks before h => ⟨rfl, trivial, h _⟩
      | cons f below => exact fun ks before h => h before
    · exact Edit.closing_places .sect name.position _
  have hbelow : (entry stack).2 = belowSection stack := by
    rcases stack with _ | ⟨f, below⟩
    · rfl
    · cases f <;> rfl
  have hin := hentry (.opening .sect :: .name :: .colon :: ks) before
    fun before => by rw [hbelow]; exact hheader before
  simpa [edit, Edit.andThen, Edit.opening, Edit.write, Token.mark, hname, hcolon, entry] using hin

/-- Only a header goes on from a group that nothing is open in. -/
theorem top_ne_group (htop : stack.head? = some .argumentGroup → c.isHeader = true)
    (hc : c.isHeader = false) : stack.head? ≠ some .argumentGroup := by
  intro hg
  rw [htop hg] at hc
  cases hc

/-- One step: a cue leaves the frames stacked, and a group on top only in front of a header. -/
theorem edit_stacked (hs : Stacked stack)
    (htop : stack.head? = some .argumentGroup → c.isHeader = true) (b : Bool) :
    Stacked (c.edit b stack).2 ∧
      ((c.edit b stack).2.head? = some .argumentGroup → b = true) := by
  cases c with
  | header name colon =>
    rw [edit_header_snd]
    exact ⟨hs.header, fun hg => nomatch hg⟩
  | dot i t =>
    cases i with
    | some u => exact hs.openingArgument (top_ne_group htop rfl) u.position b
    | none =>
      obtain ⟨hclosed, htop'⟩ := hs.closingArgument (top_ne_group htop rfl) t.position
      exact hclosed.openingArgument htop' t.position b
  | dedent t =>
    obtain ⟨hclosed, htop'⟩ := hs.closingArgument (top_ne_group htop rfl) t.position
    exact ⟨hclosed, fun hg => absurd hg htop'⟩
  | blankLine t => exact ⟨trivial, fun hg => nomatch hg⟩
  | strayIndent t | lineEnd t | other t =>
    exact ⟨hs, fun hg => absurd hg (top_ne_group htop rfl)⟩

/-- One step: a cue keeps to the places. -/
theorem edit_inPlace {b : Bool} (hfit : c.Fits) (hu : Unmarked c.tokens) (hs : Stacked stack)
    (htop : stack.head? = some .argumentGroup → c.isHeader = true)
    (hks : (c.edit b stack).2.head? = some .argumentGroup → [.opening .sect] <+: ks)
    (h : ∀ before, InPlace before (c.edit b stack).2 ks) :
    InPlace before stack ((c.edit b stack).1.map Token.kind ++ ks) := by
  cases c with
  | header name colon =>
    rw [edit_header_snd] at h
    exact header_inPlace hfit hs h b
  | dot i t =>
    cases i with
    | some u =>
      refine Edit.openingArgument_inPlace (top_ne_group htop rfl) (fun hb => hks ?_) h
      subst hb
      rfl
    | none =>
      obtain ⟨-, htop'⟩ := hs.closingArgument (top_ne_group htop rfl) t.position
      have hopen (before : List Kind) :
          InPlace before (Edit.closingArgument t.position stack).2 ((Edit.openingArgument t.position
            b (Edit.closingArgument t.position stack).2).1.map Token.kind ++ ks) :=
        Edit.openingArgument_inPlace htop' (fun hb => hks (by subst hb; rfl)) h
      have hclose := Edit.closingArgument_places t.position stack _ before hopen
      simpa [edit, Edit.andThen] using hclose
  | dedent t => exact Edit.closingArgument_places t.position stack ks before h
  | blankLine t => exact Edit.closingAll_places t.position stack ks before h
  | strayIndent t | lineEnd t => exact h before
  | other t => exact InPlace.unmarked (hu t (by simp [tokens])) (h _)

/-- In front of a header, a group goes on with a section. -/
theorem prefix_bracket (hh : headerFirst cs = true) (hg : stack.head? = some .argumentGroup)
    (last : Position) : [.opening .sect] <+: (bracket stack last cs).map Token.kind := by
  rcases cs with _ | ⟨c, cs⟩
  · cases hh
  · rcases stack with _ | ⟨f, below⟩
    · cases hg
    · obtain rfl : f = .argumentGroup := Option.some.inj hg
      cases c with
      | header name colon => exact ⟨_, rfl⟩
      | _ => cases hh

/-- A whole run, from any stacked frames. -/
theorem inPlace_bracket (hfit : ∀ c ∈ cs, c.Fits) (hu : ∀ c ∈ cs, Unmarked c.tokens)
    (hs : Stacked stack) (htop : stack.head? = some .argumentGroup → headerFirst cs = true)
    (last : Position) (before : List Kind) :
    InPlace before stack ((bracket stack last cs).map Token.kind) := by
  induction cs generalizing stack last before with
  | nil =>
    have hclosed := Edit.closingAll_places last stack [] before fun _ => trivial
    simpa [bracket] using hclosed
  | cons c cs ih =>
    obtain ⟨hs', htop'⟩ := edit_stacked hs htop (headerFirst cs)
    have hrest := ih (fun d hd => hfit d (by simp [hd])) (fun d hd => hu d (by simp [hd])) hs' htop'
      c.position
    rw [bracket, List.map_append]
    refine edit_inPlace (hfit c (by simp)) (hu c (by simp)) hs htop (fun hg => ?_) hrest
    exact prefix_bracket (htop' hg) hg c.position

end Cue

theorem inPlace_bracketFrames (h : Unmarked ts) :
    InPlace [] [] ((bracketFrames ts).map Token.kind) := by
  have hu : ∀ c ∈ Cue.ofTokens ts, Unmarked c.tokens :=
    fun c hc t ht => h t (Cue.mem_of_mem_ofTokens hc t ht)
  have hs : Stacked [] := trivial
  exact Cue.inPlace_bracket (Cue.ofTokens_fits ts) hu hs (by simp) {} []

/-- Whatever the third pass reads: each frame opens directly in a frame that may hold it, or outside
of all frames, and between tokens that it may open between; the closing marks before it are those of
the frames that they close. -/
theorem frames_open_in_place {s : Stream} {path : String} {front back : List Token}
    (hs : Unmarked s.tokens) (hsplit : (s.bracket path).tokens = front ++ t :: back)
    (ht : t.kind = .opening f) :
    ∃ stack, replay? [] (front.map Token.kind) = some stack ∧ f.MayOpenIn stack.head? ∧
      f.MayOpenBetween (front.map Token.kind) (back.map Token.kind) := by
  have hin : InPlace [] [] ((s.bracket path).tokens.map Token.kind) := inPlace_bracketFrames hs
  rw [hsplit, List.map_append, List.map_cons, ht] at hin
  obtain ⟨stack, hreplay, houter, hbetween, -⟩ := hin.after
  exact ⟨stack, hreplay, houter, by simpa using hbetween⟩

/-- A dot in front of a header: the group opens in the argument, in front of its section. -/
theorem frames_open_in_place_group :
    ∃ front back, (Stream.bracket
        ⟨[.mark .dotSpace {}, .mark .name {}, .mark .colon {}], []⟩ "a").tokens =
          front ++ .mark (.opening .argumentGroup) {} :: back ∧
      ∃ stack, replay? [] (front.map Token.kind) = some stack ∧
        Frame.argumentGroup.MayOpenIn stack.head? ∧
        Frame.argumentGroup.MayOpenBetween (front.map Token.kind) (back.map Token.kind) := by
  have hs : Unmarked [Token.mark .dotSpace {}, .mark .name {}, .mark .colon {}] := by
    simp [Unmarked, Token.mark, Kind.frame?]
  have hsplit : (Stream.bracket
      ⟨[.mark .dotSpace {}, .mark .name {}, .mark .colon {}], []⟩ "a").tokens =
        [.mark (.opening .argument) {}] ++ .mark (.opening .argumentGroup) {} ::
          [.mark (.opening .sect) {}, .mark .name {}, .mark .colon {}, .mark (.closing .sect) {},
            .mark (.closing .argumentGroup) {}, .mark (.closing .argument) {}] := rfl
  exact ⟨_, _, hsplit, frames_open_in_place hs hsplit rfl⟩

end SectionLexer
