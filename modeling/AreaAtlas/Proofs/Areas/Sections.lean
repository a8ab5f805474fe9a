import AreaAtlas.Proofs.Areas.Relabeling
import AreaAtlas.Proofs.Areas.Writing

/-!
# Sections of an areas text

A section is a piece of an areas text that ends in a line feed and begins at depth zero.  The blocks of
sections that are put behind one another are those of the single sections, but for the numbers of their
lines.  As blocks are read independently and the numbers mean nothing, a text of sections keeps to the
grammar if each of them does, and declares what they declare.
-/

namespace AreaAtlas

/-- Behind a line end, lines are as if nothing stood in front.  Only the empty line between a CR and an LF is
lost, if the one ends a text and the other begins the next one. -/
theorem filterMap_linesFrom_append {α : Type} {f : List Char → Option α} (hf : f [] = none)
    {start text rest : List Char} {c : Char} (hlast : text.getLast? = some c) (hc : isLineEnd c = true) :
    (linesFrom start (text ++ rest)).filterMap f
      = (linesFrom start text).filterMap f ++ (lines rest).filterMap f := by
  -- what stands behind a line end within the text
  have hbehind : ∀ {d : Char} {text : List Char}, (d :: text).getLast? = some c →
      (text.getLast? = some c → (linesFrom [] (text ++ rest)).filterMap f
        = (linesFrom [] text).filterMap f ++ (lines rest).filterMap f) →
      (linesFrom [] (text ++ rest)).filterMap f
        = (linesFrom [] text).filterMap f ++ (lines rest).filterMap f := by
    intro d text h ih
    cases text with
    | nil => rfl
    | cons e text => exact ih (by rwa [List.getLast?_cons_cons] at h)
  fun_induction linesFrom start text with
  | case1 => cases hlast
  | case2 => cases hlast
  | case3 start text ih =>
    rw [List.getLast?_cons_cons] at hlast
    show (start.reverse :: linesFrom [] (text ++ rest)).filterMap f = _
    rw [List.filterMap_cons, List.filterMap_cons, hbehind hlast ih]
    split
    · rfl
    · rfl
  | case4 start d text hcrlf hend ih =>
    by_cases hjoin : d = '\r' ∧ ∃ rest', text ++ rest = '\n' :: rest'
    · -- the line feed is that of the next text
      obtain ⟨rfl, rest', he⟩ := hjoin
      cases text with
      | cons e text => exact (hcrlf text rfl (by rw [(List.cons.inj he).1])).elim
      | nil =>
        have he : rest = '\n' :: rest' := he
        rw [he]
        show (start.reverse :: linesFrom [] rest').filterMap f
          = [start.reverse].filterMap f ++ ([] :: linesFrom [] rest').filterMap f
        rw [List.filterMap_cons_none hf, ← List.filterMap_append]
        rfl
    · rw [List.cons_append,
        linesFrom.eq_3 _ _ _ fun rest' hd he => hjoin ⟨hd, rest', he⟩, if_pos hend, List.filterMap_cons,
        List.filterMap_cons, hbehind hlast ih]
      split
      · rfl
      · rfl
  | case5 start d text hcrlf hend ih =>
    have hd : d ≠ '\r' := by
      rintro rfl
      exact hend rfl
    rw [List.cons_append, linesFrom.eq_3 _ _ _ fun _ he _ => hd he, if_neg hend]
    cases text with
    | nil =>
      obtain rfl : d = c := Option.some.inj hlast
      exact absurd hc hend
    | cons e text => exact ih (by rwa [List.getLast?_cons_cons] at hlast)

namespace Areas

/-! ## Blocks that can be read -/

/-- A block that can be read, and whose lines are indented by spaces only. -/
def Block.IsAccepted (b : Block) : Prop :=
  (∀ line ∈ b.lines, line.IsPlain) ∧ ∃ o, b.readDeclaration = .ok o

/-- A text keeps to the grammar if it begins at depth zero and each of its blocks can be read. -/
theorem grammar_iff_isAccepted {lines : List Line} :
    Grammar lines ↔ (split 0 lines).1 = [] ∧ ∀ b ∈ (split 0 lines).2, b.IsAccepted := by
  have hfirst : (split 0 lines).1 = [] ↔ ∀ line ∈ lines.head?, line.indent = 0 := by
    rw [split_fst, deeper_eq_nil_iff]
    simp only [Nat.not_lt, Nat.le_zero]
  have hread : ∀ b : Block, (∃ o, b.readDeclaration = .ok o) ↔
      (b.head.IsSkipped ∨ b.head.IsHeader) ∧ (b.head.firstWord = "anchor" → BodyForm b.inner) := by
    intro b
    simp only [Block.readDeclaration_readsAs b, exists_and_left, exists_eq, and_true]
  have hlines := split_lines 0 lines
  constructor
  · rintro ⟨hplain, hzero, hheads, hbodies⟩
    have hblocks := forall_mem_split_zero.mpr ⟨hheads, hbodies⟩
    refine ⟨hfirst.mpr hzero, fun b hb => ⟨fun line hline => hplain line ?_, (hread b).mpr (hblocks b hb)⟩⟩
    rw [← hlines]
    exact List.mem_append_right _ (List.mem_flatMap.mpr ⟨b, hb, hline⟩)
  · rintro ⟨hfront, hblocks⟩
    obtain ⟨hheads, hbodies⟩ := forall_mem_split_zero.mp fun b hb => (hread b).mp (hblocks b hb).2
    refine ⟨fun line hline => ?_, hfirst.mp hfront, hheads, hbodies⟩
    rw [← hlines, hfront, List.nil_append] at hline
    obtain ⟨b, hb, hline⟩ := List.mem_flatMap.mp hline
    exact (hblocks b hb).1 line hline

namespace Relabeling

variable (r : Relabeling)

theorem isAccepted_block {b : Block} : (r.block b).IsAccepted ↔ b.IsAccepted := by
  have hplain : (∀ line ∈ (r.block b).lines, line.IsPlain) ↔ ∀ line ∈ b.lines, line.IsPlain := by
    show (∀ line ∈ b.lines.map r.line, line.IsPlain) ↔ _
    rw [List.forall_mem_map]
    rfl
  unfold Block.IsAccepted
  rw [hplain, r.readDeclaration_block]
  simp only [Except.bimap_eq_ok_iff]
  refine and_congr Iff.rfl ?_
  constructor
  · rintro ⟨o, o', h, -⟩
    exact ⟨o', h⟩
  · rintro ⟨o, h⟩
    exact ⟨_, o, h, rfl⟩

theorem declaration?_block {b : Block} (h : b.IsAccepted) :
    (r.block b).declaration? = b.declaration?.map r.declaration := by
  obtain ⟨o, ho⟩ := h.2
  have ho' : (r.block b).readDeclaration = .ok (o.map r.declaration) := by
    rw [r.readDeclaration_block, ho]
    rfl
  rw [← ((Block.readDeclaration_readsAs _ _).mp ho).2, ← ((Block.readDeclaration_readsAs _ _).mp ho').2]

/-- The grammar makes nothing of the numbers of lines and of their depths but the order. -/
theorem grammar_map_iff {lines : List Line} : Grammar (lines.map r.line) ↔ Grammar lines := by
  rw [grammar_iff_isAccepted, grammar_iff_isAccepted, r.split_zero_map, List.map_eq_nil_iff,
    List.forall_mem_map]
  simp only [r.isAccepted_block]

/-- What is declared is the same on the other lines. -/
theorem declarationsIn_map {lines : List Line} (h : Grammar lines) :
    declarationsIn (lines.map r.line) = (declarationsIn lines).map r.declaration := by
  rw [← filterMap_declaration?, ← filterMap_declaration?, r.split_zero_map, List.filterMap_map,
    List.map_filterMap]
  refine List.filterMap_congr ?_
  intro b hb
  exact r.declaration?_block ((grammar_iff_isAccepted.mp h).2 b hb)

/-- All numbers zero, and the depths as they are. -/
def bare : Relabeling where
  number := fun _ => 0
  depth := id
  strictMono := strictMono_id
  depth_zero := rfl

end Relabeling

/-! ## Sections -/

/-- The logical lines of a text without their numbers. -/
def bareLines (text : List Char) : List Line :=
  (logicalLines text).map Relabeling.bare.line

/-- A section: it ends in a line feed, and the first of its logical lines is at depth zero. -/
structure IsSection (text : List Char) : Prop where
  getLast?_eq : text.getLast? = some '\n'
  first : ∀ line ∈ (logicalLines text).head?, line.indent = 0

/-- The blocks of a text without the numbers of their lines. -/
def bareBlocks (text : List Char) : List Block :=
  (split 0 (bareLines text)).2

theorem bareLines_eq (text : List Char) :
    bareLines text = (lines text).filterMap (logicalLine? 0) := by
  have hline : ∀ (number : Nat) (raw : List Char),
      (logicalLine? number raw).map Relabeling.bare.line = logicalLine? 0 raw := by
    intro number raw
    unfold logicalLine?
    split
    · rfl
    · rfl
  have hnumbers : ∀ (raws : List (List Char)) (number : Nat),
      (raws.zipIdx number).filterMap (fun p => (logicalLine? p.2 p.1).map Relabeling.bare.line)
        = raws.filterMap (logicalLine? 0) := by
    intro raws
    induction raws with
    | nil => exact fun _ => rfl
    | cons raw raws ih =>
      intro number
      rw [List.zipIdx_cons, List.filterMap_cons, List.filterMap_cons, hline, ih]
  rw [bareLines, logicalLines, List.map_filterMap]
  exact hnumbers (lines text) 1

/-- No line is torn apart between two texts. -/
def IsCut (front behind : List Char) : Prop :=
  (∀ c ∈ front.getLast?, isLineEnd c = true) ∨ behind = []

theorem bareLines_append {front behind : List Char} (h : IsCut front behind) :
    bareLines (front ++ behind) = bareLines front ++ bareLines behind := by
  rcases h with hends | rfl
  · cases hlast : front.getLast? with
    | none =>
      rw [List.getLast?_eq_none_iff.mp hlast]
      rfl
    | some c =>
      rw [bareLines_eq, bareLines_eq, bareLines_eq]
      exact filterMap_linesFrom_append rfl hlast (hends c hlast)
  · rw [List.append_nil]
    exact (List.append_nil _).symm

theorem IsSection.isCut {text : List Char} (h : IsSection text) (behind : List Char) :
    IsCut text behind := by
  left
  intro c hc
  obtain rfl : '\n' = c := Option.some.inj (h.getLast?_eq.symm.trans hc)
  rfl

theorem IsSection.flatMap_lines {text : List Char} (h : IsSection text) :
    (bareBlocks text).flatMap Block.lines = bareLines text := by
  have hfront : (split 0 (bareLines text)).1 = [] := by
    rw [split_fst, deeper_eq_nil_iff, bareLines, List.head?_map]
    intro line hline
    obtain ⟨line', hline', rfl⟩ := Option.map_eq_some_iff.mp hline
    have hzero : (Relabeling.bare.line line').indent = 0 := h.first line' hline'
    omega
  have hlines := split_lines 0 (bareLines text)
  rwa [hfront] at hlines

/-- A block is at the depth that lines are taken apart at. -/
theorem isAt_of_mem_split {depth : Nat} {lines : List Line} {b : Block}
    (h : b ∈ (split depth lines).2) : b.IsAt depth := by
  rw [split_snd] at h
  obtain ⟨p, hp, rfl⟩ := List.mem_map.mp h
  exact ⟨of_decide_eq_true (List.mem_filter.mp hp).2, fun line hline => lt_indent_of_mem_deeper hline⟩

/-- **The blocks of sections put behind one another are those of the sections.** -/
theorem split_bareLines_flatten {texts : List (List Char)} (h : ∀ text ∈ texts, IsSection text) :
    split 0 (bareLines texts.flatten) = ([], texts.flatMap bareBlocks) := by
  have hlines : bareLines texts.flatten = (texts.flatMap bareBlocks).flatMap Block.lines := by
    induction texts with
    | nil => rfl
    | cons text rest ih =>
      have hfirst := h text List.mem_cons_self
      rw [List.flatten_cons, List.flatMap_cons, List.flatMap_append, hfirst.flatMap_lines,
        ← ih fun text' ht => h text' (List.mem_cons_of_mem _ ht)]
      exact bareLines_append (hfirst.isCut _)
  rw [hlines]
  refine split_flatMap_lines ?_
  intro b hb
  obtain ⟨text, -, hb⟩ := List.mem_flatMap.mp hb
  exact isAt_of_mem_split hb

theorem grammar_flatten_iff {texts : List (List Char)} (h : ∀ text ∈ texts, IsSection text) :
    Grammar (bareLines texts.flatten) ↔ ∀ b ∈ texts.flatMap bareBlocks, b.IsAccepted := by
  rw [grammar_iff_isAccepted, split_bareLines_flatten h]
  exact and_iff_right rfl

theorem declarationsIn_flatten {texts : List (List Char)} (h : ∀ text ∈ texts, IsSection text) :
    declarationsIn (bareLines texts.flatten)
      = (texts.flatMap bareBlocks).filterMap Block.declaration? := by
  rw [← filterMap_declaration?, split_bareLines_flatten h]

end Areas

end AreaAtlas
