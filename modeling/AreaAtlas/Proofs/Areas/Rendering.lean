import AreaAtlas.Proofs.Areas.Draft
import AreaAtlas.Proofs.Areas.Grammar

/-!
# Reading undoes rendering

A rendered draft is read back as it was, whatever the two indentations are.  The lines of the text are
those of blocks, one for each anchor and in it one for each entry, and every reader is met by a block of
the form that it wants.
-/

namespace AreaAtlas.Areas

theorem isInline_of_isBlank_eq_false {c : Char} (h : isBlank c = false) (hc : c ≠ '#') : IsInline c := by
  refine ⟨hc, Bool.eq_false_iff.mpr ?_⟩
  intro hend
  rw [isBlank_of_isLineEnd hend] at h
  cases h

theorem isInline_of_isNameChar {c : Char} (h : isNameChar c = true) : IsInline c := by
  refine isInline_of_isBlank_eq_false (isBlank_eq_false_of_isNameChar h) ?_
  rintro rfl
  revert h
  decide +kernel

theorem isInline_of_isNumeral {cs : List Char} (h : IsNumeral cs) {c : Char} (hc : c ∈ cs) :
    IsInline c := by
  refine isInline_of_isBlank_eq_false (h.isBlank_eq_false hc) ?_
  rintro rfl
  exact h.not_mem (by decide) (by decide) (by decide) hc

namespace Draft

/-! ## Numbering -/

section Numbered

variable {α β γ ε : Type} {height : α → Nat} {make : Nat → α → β} {number : Nat} {l : List α}

theorem mem_numbered {b : β} (h : b ∈ numbered height make number l) :
    ∃ n, ∃ a ∈ l, b = make n a := by
  induction l generalizing number with
  | nil => cases h
  | cons a rest ih =>
    rcases List.mem_cons.mp h with rfl | h
    · exact ⟨number, a, List.mem_cons_self, rfl⟩
    · obtain ⟨n, a', ha, rfl⟩ := ih h
      exact ⟨n, a', List.mem_cons_of_mem _ ha, rfl⟩

theorem map_numbered {f : β → γ} {g : α → γ} (h : ∀ n, ∀ a ∈ l, f (make n a) = g a) :
    (numbered height make number l).map f = l.map g := by
  induction l generalizing number with
  | nil => rfl
  | cons a rest ih =>
    rw [numbered, List.map_cons, List.map_cons, h number a List.mem_cons_self,
      ih fun n a ha => h n a (List.mem_cons_of_mem _ ha)]

theorem mapM_numbered {read : β → Except ε γ} {value : Nat → α → γ}
    (h : ∀ n, ∀ a ∈ l, read (make n a) = .ok (value n a)) :
    (numbered height make number l).mapM read = .ok (numbered height value number l) := by
  induction l generalizing number with
  | nil => rfl
  | cons a rest ih =>
    rw [numbered, List.mapM_cons, h number a List.mem_cons_self,
      ih fun n a ha => h n a (List.mem_cons_of_mem _ ha)]
    rfl

theorem filterMap_numbered {value : Nat → α → β} :
    (numbered height (fun n a => some (value n a)) number l).filterMap id
      = numbered height value number l := by
  induction l generalizing number with
  | nil => rfl
  | cons a rest ih =>
    show value number a :: (numbered height (fun n a => some (value n a)) _ rest).filterMap id = _
    rw [ih]
    rfl

/-- Blocks that take up as many numbers as they have lines make up consecutive lines. -/
theorem consecutive_numbered {make : Nat → α → Block}
    (h : ∀ n, ∀ a ∈ l, Consecutive n (make n a).lines ∧ (make n a).lines.length = height a) :
    Consecutive number ((numbered height make number l).flatMap Block.lines) ∧
      ((numbered height make number l).flatMap Block.lines).length = total height l := by
  induction l generalizing number with
  | nil => exact ⟨trivial, rfl⟩
  | cons a rest ih =>
    obtain ⟨hfirst, hlength⟩ := h number a List.mem_cons_self
    obtain ⟨hrest, hsum⟩ :
        Consecutive (number + height a)
            ((numbered height make (number + height a) rest).flatMap Block.lines) ∧
          ((numbered height make (number + height a) rest).flatMap Block.lines).length
            = total height rest :=
      ih fun n a ha => h n a (List.mem_cons_of_mem _ ha)
    rw [numbered, List.flatMap_cons, List.length_append, hlength, hsum]
    exact ⟨hfirst.append (hlength ▸ hrest), rfl⟩

end Numbered

/-! ## Blocks -/

variable {i j : Nat}

/-- The lines of alternatives. -/
def alternativeLines (j number : Nat) (as : List Alternative) : List Line :=
  numbered (fun _ => 1) (fun n a => ⟨n, j, a.chars⟩) number as

/-- The block of an entry. -/
def Entry.block (i j number : Nat) (e : Entry) : Block :=
  ⟨⟨number, i, e.text⟩, alternativeLines j (number + 1) e.requirements.onLines⟩

/-- The block of an anchor. -/
def Anchor.block (i j number : Nat) (a : Anchor) : Block :=
  ⟨⟨number, 0, a.text⟩,
    (numbered Entry.height (Entry.block i j) (number + 1) a.entries).flatMap Block.lines⟩

/-- The blocks of a draft. -/
def blocks (i j : Nat) (as : List Anchor) : List Block :=
  numbered Anchor.height (Anchor.block i j) 1 as

theorem length_alternativeLines {number : Nat} {as : List Alternative} :
    (alternativeLines j number as).length = as.length := by
  unfold alternativeLines
  induction as generalizing number with
  | nil => rfl
  | cons a rest ih => rw [numbered, List.length_cons, List.length_cons, ih]

theorem consecutive_alternativeLines {number : Nat} {as : List Alternative} :
    Consecutive number (alternativeLines j number as) := by
  unfold alternativeLines
  induction as generalizing number with
  | nil => trivial
  | cons a rest ih => exact ⟨rfl, ih⟩

theorem mem_alternativeLines {number : Nat} {as : List Alternative} {line : Line}
    (h : line ∈ alternativeLines j number as) : line.indent = j ∧ IsContent line.text := by
  obtain ⟨n, a, -, rfl⟩ := mem_numbered h
  exact ⟨rfl, a.isContent⟩

/-- The lines of an entry's block are consecutive, and as many as the entry takes up. -/
theorem Entry.block_lines {number : Nat} {e : Entry} :
    Consecutive number (e.block i j number).lines ∧ (e.block i j number).lines.length = e.height := by
  refine ⟨⟨rfl, consecutive_alternativeLines⟩, ?_⟩
  show (alternativeLines j (number + 1) e.requirements.onLines).length + 1 = e.height
  rw [length_alternativeLines]
  rfl

/-- So are those of an anchor's block. -/
theorem Anchor.block_lines {number : Nat} {a : Anchor} :
    Consecutive number (a.block i j number).lines ∧
      (a.block i j number).lines.length = a.height := by
  obtain ⟨hconsecutive, hlength⟩ :
      Consecutive (number + 1) (a.block i j number).inner ∧
        (a.block i j number).inner.length = total Entry.height a.entries :=
    consecutive_numbered fun _ _ _ => Entry.block_lines
  refine ⟨⟨rfl, hconsecutive⟩, ?_⟩
  show (a.block i j number).inner.length + 1 = a.height
  rw [hlength]
  rfl

/-! ### The lines as they are written -/

theorem Entry.written_block {number : Nat} {e : Entry} :
    (e.block i j number).lines.map Line.written = e.lines i j := by
  have halternatives : (alternativeLines j (number + 1) e.requirements.onLines).map Line.written
      = e.requirements.onLines.map fun a => List.replicate j ' ' ++ a.chars :=
    map_numbered fun _ _ _ => rfl
  show Line.written ⟨number, i, e.text⟩ ::
    (alternativeLines j (number + 1) e.requirements.onLines).map Line.written = e.lines i j
  rw [halternatives]
  rfl

theorem written_flatMap_numbered {α : Type} {height : α → Nat} {make : Nat → α → Block}
    {raw : α → List (List Char)} {number : Nat} {l : List α}
    (h : ∀ n, ∀ a ∈ l, (make n a).lines.map Line.written = raw a) :
    ((numbered height make number l).flatMap Block.lines).map Line.written = l.flatMap raw := by
  have hmap : (numbered height make number l).map (fun b => b.lines.map Line.written) = l.map raw :=
    map_numbered h
  rw [List.map_flatMap, List.flatMap_def, hmap, List.flatMap_def]

theorem Anchor.written_block {number : Nat} {a : Anchor} :
    (a.block i j number).lines.map Line.written = a.lines i j := by
  have hentries : (a.block i j number).inner.map Line.written = a.entries.flatMap (Entry.lines i j) :=
    written_flatMap_numbered fun _ _ _ => Entry.written_block
  show a.text :: (a.block i j number).inner.map Line.written = a.lines i j
  rw [hentries]
  rfl

theorem written_blocks (as : List Anchor) :
    ((blocks i j as).flatMap Block.lines).map Line.written = as.flatMap (Anchor.lines i j) :=
  written_flatMap_numbered fun _ _ _ => Anchor.written_block

/-! ## Texts of lines -/

theorem isInline_of_mem_placeText {place : Option (Literal × Literal)} :
    ∀ c ∈ placeText place, IsInline c := by
  cases place with
  | none => exact fun c hc => by cases hc
  | some p =>
    obtain ⟨x, y⟩ := p
    have hat : ∀ c ∈ " at ".toList, IsInline c := forall_isInline_of_all (by decide)
    have hcomma : ∀ c ∈ ", ".toList, IsInline c := forall_isInline_of_all (by decide)
    rw [placeText_some]
    simp only [List.forall_mem_append]
    exact ⟨⟨⟨hat, fun _ => isInline_of_isNumeral x.isNumeral⟩, hcomma⟩,
      fun _ => isInline_of_isNumeral y.isNumeral⟩

/-- A header can stand on a line. -/
theorem Anchor.isContent_text (a : Anchor) : IsContent a.text := by
  have hkeyword : ∀ c ∈ "anchor ".toList, IsInline c := forall_isInline_of_all (by decide)
  have hfront : StopsAt isBlank "anchor ".toList := stopsAt_cons (by decide)
  refine ⟨?_, ?_, ?_, ?_⟩
  · exact List.append_ne_nil_of_right_ne_nil _ (List.cons_ne_nil _ _)
  · unfold Anchor.text
    rw [List.append_assoc, List.append_assoc]
    exact StopsAt.append_of_ne_nil hfront (by decide)
  · unfold Anchor.text
    rw [List.reverse_append]
    exact stopsAt_cons (by decide)
  · unfold Anchor.text
    simp only [List.forall_mem_append, List.forall_mem_singleton]
    exact ⟨⟨⟨hkeyword, fun c hc => isInline_of_isNameChar (a.name.isName.2 c hc)⟩,
      isInline_of_mem_placeText⟩, by decide⟩

theorem isInline_of_mem_keyword {kind : NodeKind} {c : Char} (hc : c ∈ kind.keyword.toList) :
    IsInline c :=
  isInline_of_isNameChar (isNameChar_of_isWord ((isRun_keyword kind).2 c hc))

/-- An entry can stand on a line. -/
theorem Entry.isContent_text (e : Entry) : IsContent e.text := by
  have hword : IsRun isNameChar e.kind.keyword.toList :=
    ⟨(isRun_keyword e.kind).1, fun c hc => isNameChar_of_isWord ((isRun_keyword e.kind).2 c hc)⟩
  refine ⟨?_, ?_, ?_, ?_⟩
  · unfold Entry.text
    rw [List.append_assoc]
    exact List.append_ne_nil_of_right_ne_nil _ (List.cons_ne_nil _ _)
  · unfold Entry.text
    simp only [List.append_assoc]
    exact hword.stopsAt_append fun _ hc => isBlank_eq_false_of_isNameChar hc
  · unfold Entry.text
    rw [List.reverse_append]
    cases e.requirements with
    | inline a =>
      show StopsAt isBlank ((' ' :: a.chars).reverse ++ _)
      rw [List.reverse_cons, List.append_assoc]
      refine a.isContent.back.append_of_ne_nil ?_
      exact fun he => a.isContent.ne_nil (List.reverse_eq_nil_iff.mp he)
    | block first rest =>
      rw [List.reverse_append]
      exact stopsAt_cons (by decide)
  · unfold Entry.text
    simp only [List.forall_mem_append, List.forall_mem_singleton]
    refine ⟨⟨⟨⟨fun _ => isInline_of_mem_keyword, by decide⟩,
      fun c hc => isInline_of_isNameChar (e.target.isName.2 c hc)⟩, by decide⟩, ?_⟩
    cases e.requirements with
    | inline a => exact List.forall_mem_cons.mpr ⟨by decide, a.isContent.inline⟩
    | block first rest => exact fun c hc => by cases hc

theorem isContent_of_mem_block {number : Nat} {e : Entry} {line : Line}
    (h : line ∈ (e.block i j number).lines) : IsContent line.text := by
  rcases List.mem_cons.mp h with rfl | h
  · exact e.isContent_text
  · exact (mem_alternativeLines h).2

theorem isContent_of_mem_blocks {as : List Anchor} {line : Line}
    (h : line ∈ (blocks i j as).flatMap Block.lines) : IsContent line.text := by
  obtain ⟨b, hb, hline⟩ := List.mem_flatMap.mp h
  obtain ⟨n, a, -, rfl⟩ := mem_numbered hb
  rcases List.mem_cons.mp hline with rfl | hline
  · exact a.isContent_text
  · obtain ⟨b', hb', hline⟩ := List.mem_flatMap.mp hline
    obtain ⟨n', e, -, rfl⟩ := mem_numbered hb'
    exact isContent_of_mem_block hline

/-- **The lines of a rendered draft are those of its blocks.** -/
theorem readLines_render (i j : Nat) (as : List Anchor) :
    readLines (render i j as) = .ok ((blocks i j as).flatMap Block.lines) := by
  have hlines : ∀ n, ∀ a ∈ as, Consecutive n (Anchor.block i j n a).lines ∧
      (Anchor.block i j n a).lines.length = a.height := fun _ _ _ => Anchor.block_lines
  unfold render
  rw [← written_blocks]
  exact readLines_written (consecutive_numbered hlines).1 fun _ => isContent_of_mem_blocks

/-! ## Reading blocks -/

/-- A place in a header is read as the numbers of its literals. -/
theorem positionOf?_value (x y : Literal) :
    positionOf? (x.chars, y.chars) = some ⟨x.value, y.value⟩ := by
  have hx : Binary64.read? x.chars = some x.value := (Option.some_get _).symm
  have hy : Binary64.read? y.chars = some y.value := (Option.some_get _).symm
  unfold positionOf?
  rw [hx, hy]
  rfl

theorem Anchor.headerForm (a : Anchor) :
    HeaderForm a.text a.name.chars (a.place.map fun p => (p.1.chars, p.2.chars)) := by
  have hanchor : "anchor ".toList = Header.keyword ++ [' '] := by decide
  have hgap : IsRun isBlank [' '] := by decide
  have hnone : ∀ c ∈ ([] : List Char), isBlank c = true := by simp
  unfold Anchor.text
  rw [hanchor]
  cases a.place with
  | none =>
    simpa only [placeText_none, List.append_nil, Option.map_none] using
      HeaderForm.bare hgap a.name.isName hnone
  | some p =>
    obtain ⟨x, y⟩ := p
    -- what is written between the parts are gaps and blanks of the form
    have hat : " at ".toList = [' '] ++ ['a', 't'] ++ [' '] := by decide
    have hcomma : ", ".toList = [','] ++ [' '] := by decide
    simpa only [placeText_some, hat, hcomma, List.append_assoc, List.append_nil, List.nil_append,
      Option.map_some] using
      HeaderForm.placed hgap a.name.isName hgap hgap x.isNumeral hnone hgap.2 y.isNumeral hnone

theorem Anchor.read?_text (a : Anchor) : Header.read? a.text =
    some ⟨.ofList a.name.chars, a.place.map fun (x, y) => ⟨x.value, y.value⟩⟩ := by
  rw [Header.read?_of_headerForm a.headerForm]
  cases a.place with
  | none => rfl
  | some p =>
    rw [Option.map_some, Option.bind_some, positionOf?_value p.1 p.2]
    rfl

theorem blockAlternatives_lines {number : Nat} {first : Alternative} {rest : List Alternative} :
    blockAlternatives (alternativeLines j number (first :: rest))
      = (first :: rest).map (·.chars) := by
  have hdepth : ∀ line ∈ alternativeLines j number (first :: rest), decide (line.indent = j) = true :=
    fun line hline => decide_eq_true (mem_alternativeLines hline).1
  have htext : (alternativeLines j number (first :: rest)).map (·.text)
      = (first :: rest).map (·.chars) := map_numbered fun _ _ _ => rfl
  show ((alternativeLines j number (first :: rest)).filter (·.indent = j)).map (·.text) = _
  rw [List.filter_eq_self.mpr hdepth, htext]

/-- The line of an entry is of the form, with nothing between the name and the colon. -/
theorem Entry.text_eq (e : Entry) : e.text = e.kind.keyword.toList ++ [' '] ++ e.target.chars ++ [] ++
    [':'] ++ e.requirements.behindColon := by
  rw [List.append_nil]
  rfl

/-- Something stands behind the colon or on lines, not both, and there the alternatives are. -/
theorem Requirements.alternatives_spec (r : Requirements) (number : Nat) :
    (trimStart r.behindColon = [] ↔ alternativeLines j number r.onLines ≠ []) ∧
      r.alternatives.map (·.chars) = if trimStart r.behindColon = [] then
        blockAlternatives (alternativeLines j number r.onLines) else [trimStart r.behindColon] := by
  cases r with
  | inline a =>
    have hblank : IsRun isBlank [' '] := by decide
    have htrim : trimStart (Requirements.inline a).behindColon = a.chars :=
      trimStart_append hblank.2 a.isContent.front
    rw [htrim, if_neg a.isContent.ne_nil]
    exact ⟨iff_of_false a.isContent.ne_nil fun h => h rfl, rfl⟩
  | block first rest =>
    have htrim : trimStart (Requirements.block first rest).behindColon = [] := rfl
    rw [htrim, if_pos rfl]
    exact ⟨iff_of_true rfl (List.cons_ne_nil _ _), blockAlternatives_lines.symm⟩

theorem Entry.readEntry_block {number : Nat} {e : Entry} :
    (e.block i j number).readEntry = .ok (some (e.read number)) := by
  obtain ⟨hplace, halternatives⟩ := Requirements.alternatives_spec (j := j) e.requirements (number + 1)
  have hgap : IsRun isBlank [' '] := by decide
  have hnone : ∀ c ∈ ([] : List Char), isBlank c = true := by simp
  apply (Block.readEntry_readsAs _ _).mpr
  constructor
  · show EntryForm e.text (alternativeLines j (number + 1) e.requirements.onLines)
    rw [e.text_eq]
    exact EntryForm.leading hgap e.target.isName hnone (trimStart_eq_nil_iff.symm.trans hplace)
  · show some (e.read number) = Line.entryAbove? ⟨number, i, e.text⟩
      (alternativeLines j (number + 1) e.requirements.onLines)
    rw [Line.entryAbove?_leading e.text_eq hgap e.target.isName hnone, Entry.read, halternatives]

/-- The blocks of entries are at the depth of the first indentation. -/
theorem Entry.block_isAt (hij : i < j) {number : Nat} {e : Entry} : (e.block i j number).IsAt i := by
  refine ⟨Nat.lt_irrefl i, ?_⟩
  intro line hline
  rw [(mem_alternativeLines hline).1]
  exact hij

theorem Anchor.block_isAt (hi : 0 < i) (hij : i < j) {number : Nat} {a : Anchor} :
    (a.block i j number).IsAt 0 := by
  refine ⟨Nat.lt_irrefl 0, ?_⟩
  intro line hline
  obtain ⟨b, hb, hline⟩ := List.mem_flatMap.mp hline
  obtain ⟨n, e, -, rfl⟩ := mem_numbered hb
  rcases List.mem_cons.mp hline with rfl | hline
  · exact hi
  · rw [(mem_alternativeLines hline).1]
    omega

/-- The body of an anchor begins with the line of its first entry. -/
theorem Anchor.entryDepth_inner {number : Nat} (a : Anchor) :
    (a.block i j number).inner ≠ [] ∧ entryDepth (a.block i j number).inner = i := by
  obtain ⟨name, place, entries, hne⟩ := a
  cases entries with
  | nil => exact absurd rfl hne
  | cons first rest => exact ⟨List.cons_ne_nil _ _, rfl⟩

/-- It is taken apart into the blocks of the entries. -/
theorem Anchor.entryBlocks_inner (hij : i < j) {number : Nat} (a : Anchor) :
    entryBlocks (a.block i j number).inner
      = (i, numbered Entry.height (Entry.block i j) (number + 1) a.entries) := by
  obtain ⟨hne, hdepth⟩ : (a.block i j number).inner ≠ [] ∧
      entryDepth (a.block i j number).inner = i := a.entryDepth_inner
  have hsplit : split i (a.block i j number).inner
      = ([], numbered Entry.height (Entry.block i j) (number + 1) a.entries) := by
    apply split_flatMap_lines
    intro b hb
    obtain ⟨n, e, -, rfl⟩ := mem_numbered hb
    exact Entry.block_isAt hij
  rw [entryBlocks_eq hne, hdepth, hsplit]

theorem Anchor.readAnchor_block (hij : i < j) {number : Nat} (a : Anchor) :
    (a.block i j number).readAnchor = .ok (a.declaration number) := by
  have hheader : Header.read? (a.block i j number).head.text = some
      ⟨.ofList a.name.chars, a.place.map fun (x, y) => ⟨x.value, y.value⟩⟩ := a.read?_text
  have hinner : ¬(a.block i j number).inner.isEmpty = true :=
    fun h => (a.entryDepth_inner (i := i) (j := j)).1 (List.isEmpty_iff.mp h)
  have hentries : (numbered Entry.height (Entry.block i j) (number + 1) a.entries).mapM
      (Block.readEntryAt i)
      = .ok (numbered Entry.height (fun n e => some (e.read n)) (number + 1) a.entries) := by
    apply mapM_numbered
    intro n e _
    have hindent : (e.block i j n).head.indent = i := rfl
    unfold Block.readEntryAt
    rw [if_pos hindent]
    exact Entry.readEntry_block
  unfold Block.readAnchor
  rw [hheader]
  dsimp only
  rw [if_neg hinner, Anchor.entryBlocks_inner hij]
  dsimp only
  rw [hentries]
  show Except.ok (Declaration.mk _ _ number (List.filterMap id _)) = _
  rw [filterMap_numbered]
  rfl

theorem Anchor.readDeclaration_block (hij : i < j) {number : Nat} (a : Anchor) :
    (a.block i j number).readDeclaration = .ok (some (a.declaration number)) := by
  have hword : (a.block i j number).head.firstWord = "anchor" := by
    apply firstWord_of_isHeader
    exact ⟨_, _, a.headerForm⟩
  unfold Block.readDeclaration
  dsimp only
  rw [if_pos hword, a.readAnchor_block hij]
  rfl

/-- A rendered draft is taken apart into its blocks. -/
theorem readBlocks_render (hi : 0 < i) (hij : i < j) (as : List Anchor) :
    readBlocks (render i j as) = .ok (blocks i j as) := by
  have hsplit : split 0 ((blocks i j as).flatMap Block.lines) = ([], blocks i j as) := by
    apply split_flatMap_lines
    intro b hb
    obtain ⟨n, a, -, rfl⟩ := mem_numbered hb
    exact Anchor.block_isAt hi hij
  unfold readBlocks
  rw [readLines_render]
  dsimp only [bind, Except.bind]
  rw [hsplit]
  rfl

/-- An entry survives if one of its alternatives is within the difficulty. -/
theorem isPermitted_declarations (as : List Anchor) (setting : Difficulty) :
    (declarations as).map (fun d => d.entries.map (·.isPermitted setting)) =
      as.map fun a => a.entries.map fun e =>
        e.requirements.alternatives.any fun r => Requirement.permits setting r.chars := by
  apply map_numbered
  intro n a _
  apply map_numbered
  intro m e _
  show (e.requirements.alternatives.map (·.chars)).any (Requirement.permits setting) = _
  simp only [List.any_map, Function.comp_def]

end Draft

open Draft

/-- **Reading undoes rendering**, at any two indentations of which the second is deeper. -/
theorem readDeclarations_render {i j : Nat} (hi : 0 < i) (hij : i < j) (as : List Draft.Anchor) :
    readDeclarations (render i j as) = .ok (declarations as) ∧
      ∀ setting, (declarations as).map (fun d => d.entries.map (·.isPermitted setting)) =
        as.map fun a => a.entries.map fun e =>
          e.requirements.alternatives.any fun r => Requirement.permits setting r.chars := by
  refine ⟨?_, isPermitted_declarations as⟩
  have hread : (blocks i j as).mapM Block.readDeclaration
      = .ok (numbered Anchor.height (fun n a => some (a.declaration n)) 1 as) := by
    apply mapM_numbered
    intro n a _
    exact a.readDeclaration_block hij
  unfold readDeclarations
  rw [readBlocks_render hi hij]
  show (List.mapM Block.readDeclaration (blocks i j as) >>= _) = _
  rw [hread]
  show Except.ok (List.filterMap id _) = _
  rw [filterMap_numbered]
  rfl

/-- An anchor with the name of a keyword, one entry with its requirement behind the colon and one with two
alternatives on lines of their own. -/
def Draft.anchorAt : Draft.Anchor where
  name := ⟨"at".toList, by decide⟩
  place := some (⟨"-1".toList, ⟨['-'], ['1'], [], rfl, Or.inr rfl, by decide, Or.inl rfl⟩⟩,
    ⟨"2.5".toList, ⟨[], ['2'], ['.', '5'], rfl, Or.inl rfl, by decide, Or.inr ⟨['5'], by decide, rfl⟩⟩⟩)
  entries :=
    [⟨.anchor, ⟨"at".toList, by decide⟩, .inline ⟨"free".toList, by decide⟩⟩,
      ⟨.pickup, ⟨"Gem.1".toList, by decide⟩,
        .block ⟨"Bash: Boost".toList, by decide⟩ [⟨"impossible".toList, by decide⟩]⟩]
  entries_ne_nil := List.cons_ne_nil _ _

theorem readDeclarations_render_anchorAt :
    render 2 4 [Draft.anchorAt] =
      ("anchor at at -1, 2.5:\n  conn at: free\n" ++
        "  pickup Gem.1:\n    Bash: Boost\n    impossible\n").toList ∧
    readDeclarations (render 2 4 [Draft.anchorAt]) = .ok (declarations [Draft.anchorAt]) := by
  constructor
  · decide
  · exact (readDeclarations_render (by decide) (by decide) [Draft.anchorAt]).1

end AreaAtlas.Areas
