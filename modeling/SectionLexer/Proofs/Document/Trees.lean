import SectionLexer.Proofs.Document.Nesting

/-! The trees of a written document, by induction over them. The last arguments of a tree stay open
until what follows closes them. -/
namespace SectionLexer

variable {depth : Nat} {stack below : List Frame} {bs : List (List Frame)}
variable {cs ds cs' ds' : List (Kind × List Char)}

/-- From the open arguments `bs`, tokens `cs` close and open arguments above `fixed`, such that in
the end `ds` is written. -/
def Continues (depth : Nat) (bs : List (List Frame)) (fixed below : List Frame)
    (cs ds : List (Kind × List Char)) : Prop :=
  ∃ bs' out, AreArguments bs' ∧
    (∀ rest, nest (depth + bs.length) (bs.flatten ++ (fixed ++ below)) (cs ++ rest) =
      (nest (depth + bs'.length) (bs'.flatten ++ (fixed ++ below)) rest).behind out) ∧
    out ++ closingMarks (bs'.flatten ++ fixed) = closingMarks (bs.flatten ++ fixed) ++ ds

/-- From the open frames `stack`, tokens `cs` enter a section in which `ds` is written. -/
def Enters (depth : Nat) (stack : List Frame) (cs ds : List (Kind × List Char)) : Prop :=
  ∃ bs out, AreArguments bs ∧
    (∀ rest, nest depth stack (cs ++ rest) =
      (nest (depth + bs.length) (bs.flatten ++ ([.sect] ++ belowSection stack)) rest).behind
        (enteringMarks stack ++ out)) ∧
    out ++ closingMarks (bs.flatten ++ [.sect]) = ds

theorem Continues.nil {fixed : List Frame} (hb : AreArguments bs) :
    Continues depth bs fixed below [] [] :=
  ⟨bs, [], hb, fun _ => rfl, by simp⟩

theorem Continues.trans {fixed : List Frame} (h : Continues depth bs fixed below cs ds)
    (h' : ∀ bs', AreArguments bs' → Continues depth bs' fixed below cs' ds') :
    Continues depth bs fixed below (cs ++ cs') (ds ++ ds') := by
  obtain ⟨bs₁, out₁, hb₁, hnest₁, hout₁⟩ := h
  obtain ⟨bs₂, out₂, hb₂, hnest₂, hout₂⟩ := h' bs₁ hb₁
  refine ⟨bs₂, out₁ ++ out₂, hb₂, fun rest => ?_, ?_⟩
  · rw [List.append_assoc, hnest₁, hnest₂, Nested.behind_behind]
  · rw [List.append_assoc, hout₂, ← List.append_assoc, hout₁, List.append_assoc]

theorem Enters.trans (h : Enters depth stack cs ds)
    (h' : ∀ bs, AreArguments bs → Continues depth bs [.sect] (belowSection stack) cs' ds') :
    Enters depth stack (cs ++ cs') (ds ++ ds') := by
  obtain ⟨bs₁, out₁, hb₁, hnest₁, hout₁⟩ := h
  obtain ⟨bs₂, out₂, hb₂, hnest₂, hout₂⟩ := h' bs₁ hb₁
  refine ⟨bs₂, out₁ ++ out₂, hb₂, fun rest => ?_, ?_⟩
  · rw [List.append_assoc, hnest₁, hnest₂, Nested.behind_behind, List.append_assoc]
  · rw [List.append_assoc, hout₂, ← List.append_assoc, hout₁]

theorem headerFirst_name (level : Nat) (name : List Char) (cs : List (Kind × List Char)) :
    Cue.headerFirst (Cue.ofTokens (levelled level (headerContents name ++ cs))) = true := by
  rw [levelled_header, ofTokens_header]
  rfl

theorem headerFirst_inArgument (level : Nat) {c : Kind × List Char} (hc : InArgument c)
    (cs : List (Kind × List Char)) :
    Cue.headerFirst (Cue.ofTokens (levelled level (c :: cs))) = false := by
  obtain ⟨hr, hq⟩ := attach_inArgument hc
  simp [levelled, hr, Run.resolve, hq, Cue.headerFirst, Cue.isHeader]

theorem Argument.inArgument_content (a : Argument) : InArgument a.content := by
  cases a <;> simp [Argument.content, InArgument]

theorem Argument.inArgument_of_mem_contents (a : Argument) (as : List Argument) :
    ∀ c ∈ Argument.contents a as, InArgument c := by
  intro c hc
  simp only [Argument.contents, List.mem_cons, List.mem_flatMap, List.not_mem_nil, or_false] at hc
  obtain rfl | ⟨b, -, rfl | rfl⟩ := hc
  · exact a.inArgument_content
  · simp [InArgument]
  · exact b.inArgument_content

theorem Argument.inArgument_of_mem_inlineContents (as : List Argument) :
    ∀ c ∈ Argument.inlineContents as, InArgument c := by
  cases as with
  | nil => simp [Argument.inlineContents]
  | cons a as => exact Argument.inArgument_of_mem_contents a as

/-- The first line of a section. -/
theorem nest_headerLine (name : List Char) (hd : ∀ c ∈ ds, InArgument c) (depth : Nat)
    (stack : List Frame) (rest : List (Kind × List Char)) :
    nest depth stack (headerContents name ++ (ds ++ rest)) =
      (nest depth (.sect :: belowSection stack) rest).behind
        (enteringMarks stack ++ ((.opening .sect, []) :: (headerContents name ++ ds))) := by
  rw [nest_header, nest_arguments hd, Nested.behind_behind]
  simp

/-- A line of arguments behind a dot. -/
theorem arguments_continue (hb : AreArguments bs) (first : Argument) (more : List Argument) :
    Continues depth bs [] below (lineEnd :: (leadingSpaces depth ++ dotMark ::
      Argument.contents first more)) (Frame.argument.around (Argument.contents first more)) := by
  have hargs := Argument.inArgument_of_mem_contents first more
  refine ⟨[[.argument]], closingMarks bs.flatten ++ openingMarks [.argument] ++
    Argument.contents first more, by simp [AreArguments, IsArgument], fun rest => ?_, ?_⟩
  · have hhead : Cue.headerFirst (Cue.ofTokens (levelled (depth + 1)
        (Argument.contents first more ++ rest))) = false :=
      headerFirst_inArgument _ first.inArgument_content _
    have hdot := nest_dot hb below depth hhead
    simp only [List.cons_append, List.append_assoc, List.nil_append] at hdot ⊢
    rw [hdot, nest_arguments hargs, Nested.behind_behind]
    simp [dotFrames]
  · simp [Frame.around, openingMarks, closingMarks]

/-- A group of sections behind a dot is one argument more. -/
theorem group_continues (hb : AreArguments bs) {name : List Char}
    (h : Enters (depth + 1) ([.argumentGroup, .argument] ++ below) (headerContents name ++ cs) ds) :
    Continues depth bs [] below (lineEnd :: (leadingSpaces depth ++ dotMark ::
      (headerContents name ++ cs))) (Frame.argument.around (Frame.argumentGroup.around ds)) := by
  obtain ⟨bs', out, hb', hnest, hout⟩ := h
  refine ⟨bs' ++ [[.sect, .argumentGroup, .argument]],
    closingMarks bs.flatten ++ openingMarks [.argumentGroup, .argument] ++ out,
    areArguments_append.2 ⟨hb', by simp [AreArguments, IsArgument]⟩, fun rest => ?_, ?_⟩
  · have hdot := nest_dot hb below depth (headerFirst_name _ name (cs ++ rest))
    have hlen : depth + (bs' ++ [[Frame.sect, .argumentGroup, .argument]]).length =
        depth + 1 + bs'.length := by simp; omega
    simp only [List.cons_append, List.append_assoc, List.nil_append, dotFrames, if_true]
      at hdot hnest ⊢
    rw [hdot, hnest, Nested.behind_behind, hlen]
    simp [belowSection, enteringMarks]
  · simp [← hout, Frame.around, openingMarks, closingMarks]

/-- A further section of a group. -/
theorem sibling_continues (hb : AreArguments bs) {name : List Char}
    (h : Enters depth (.sect :: below) (headerContents name ++ cs) ds) :
    Continues depth bs [.sect] below (lineEnd :: (leadingSpaces depth ++
      (headerContents name ++ cs))) ds := by
  obtain ⟨bs', out, hb', hnest, hout⟩ := h
  refine ⟨bs', closingMarks bs.flatten ++ (enteringMarks (.sect :: below) ++ out), hb',
    fun rest => ?_, ?_⟩
  · have hsibling := nest_sibling hb (.sect :: below) depth name (cs ++ rest)
    simp only [List.cons_append, List.append_assoc, List.nil_append] at hsibling hnest ⊢
    rw [hsibling, hnest, Nested.behind_behind]
    rfl
  · simp [← hout, enteringMarks, closingMarks]

/-- A section starts with its header. -/
theorem Section.scanned_eq (s : Section) (depth : Nat) :
    ∃ name cs, s.scanned depth = headerContents name ++ cs := by
  obtain ⟨name, inline, continuations⟩ := s
  exact ⟨name.chars, _, rfl⟩

theorem SectionGroup.scanned_eq (g : SectionGroup) (depth : Nat) :
    ∃ name cs, g.scanned depth = headerContents name ++ cs := by
  obtain ⟨first, more⟩ := g
  obtain ⟨name, cs, h⟩ := first.scanned_eq depth
  exact ⟨name, cs ++ Section.scannedAll depth more, by simp [SectionGroup.scanned, h]⟩

mutual
theorem Section.enters (s : Section) (depth : Nat) (stack : List Frame) :
    Enters depth stack (s.scanned depth) s.contents := by
  obtain ⟨name, inline, continuations⟩ := s
  obtain ⟨bs, out, hb, hnest, hout⟩ :=
    Continuation.allContinue continuations depth [] (.sect :: belowSection stack) .nil
  let head := (Kind.opening .sect, []) ::
    (headerContents name.chars ++ Argument.inlineContents inline)
  refine ⟨bs, head ++ out, hb, fun rest => ?_, ?_⟩
  · have hrest := hnest rest
    simp only [List.length_nil, Nat.add_zero, List.flatten_nil, List.nil_append] at hrest
    have hhead := nest_headerLine name.chars (Argument.inArgument_of_mem_inlineContents inline)
      depth stack (Continuation.scannedAll depth continuations ++ rest)
    rw [hrest, Nested.behind_behind] at hhead
    simpa [Section.scanned, headerContents, head] using hhead
  · simp only [List.append_nil, List.flatten_nil, closingMarks, List.map_nil, List.nil_append]
      at hout
    simp [Section.contents, Frame.around, ← hout, head, closingMarks, headerContents]

theorem Continuation.continues (c : Continuation) (depth : Nat) (bs : List (List Frame))
    (below : List Frame) (hb : AreArguments bs) :
    Continues depth bs [] below (lineEnd :: c.scanned depth) c.contents := by
  cases c with
  | arguments first more h => exact arguments_continue hb first more
  | group g =>
    obtain ⟨name, cs, hcs⟩ := g.scanned_eq (depth + 1)
    have hg := SectionGroup.enters g (depth + 1) ([.argumentGroup, .argument] ++ below)
    rw [hcs] at hg
    rw [Continuation.scanned, hcs]
    exact group_continues hb hg

theorem SectionGroup.enters (g : SectionGroup) (depth : Nat) (stack : List Frame) :
    Enters depth stack (g.scanned depth) g.contents := by
  obtain ⟨first, more⟩ := g
  exact (first.enters depth stack).trans fun bs hb =>
    Section.allContinue more depth bs (belowSection stack) hb

theorem Continuation.allContinue (cs : List Continuation) (depth : Nat) (bs : List (List Frame))
    (below : List Frame) (hb : AreArguments bs) :
    Continues depth bs [] below (Continuation.scannedAll depth cs)
      (Continuation.contentsAll cs) := by
  match cs with
  | [] => exact .nil hb
  | c :: cs =>
    exact (c.continues depth bs below hb).trans fun bs' hb' =>
      Continuation.allContinue cs depth bs' below hb'

theorem Section.allContinue (ss : List Section) (depth : Nat) (bs : List (List Frame))
    (below : List Frame) (hb : AreArguments bs) :
    Continues depth bs [.sect] below (Section.scannedAll depth ss) (Section.contentsAll ss) := by
  match ss with
  | [] => exact .nil hb
  | s :: ss =>
    obtain ⟨name, cs, hcs⟩ := s.scanned_eq depth
    have hs := s.enters depth (.sect :: below)
    rw [hcs] at hs
    have hall := (sibling_continues hb hs).trans fun bs' hb' =>
      Section.allContinue ss depth bs' below hb'
    simpa [Section.scannedAll, Section.contentsAll, hcs] using hall
end

end SectionLexer
