import AreaAtlas.Proofs.Areas.Layout

/-!
# Writing lines

Reading undoes writing, as far as lines and blocks go.  A line is written as its indentation and its text;
it is read back if the text holds neither a comment nor a line end and has no white space at its ends.
Blocks are written one after the other, and lines are taken apart into the same blocks again if their
heads are not deeper than a depth and their other lines are.
-/

namespace AreaAtlas

/-- Whether a character neither begins a comment nor ends a line. -/
def IsInline (c : Char) : Prop :=
  c ≠ '#' ∧ isLineEnd c = false

instance (c : Char) : Decidable (IsInline c) :=
  inferInstanceAs (Decidable (c ≠ '#' ∧ isLineEnd c = false))

theorem forall_isInline_of_all {cs : List Char} (h : (cs.all fun c => decide (IsInline c)) = true) :
    ∀ c ∈ cs, IsInline c :=
  fun c hc => of_decide_eq_true (List.all_eq_true.mp h c hc)

/-- What a line holds: text within the line, without white space at either end. -/
structure IsContent (text : List Char) : Prop where
  ne_nil : text ≠ []
  front : StopsAt isBlank text
  back : StopsAt isBlank text.reverse
  inline : ∀ c ∈ text, IsInline c

instance (text : List Char) : Decidable (IsContent text) :=
  decidable_of_iff (text ≠ [] ∧ StopsAt isBlank text ∧ StopsAt isBlank text.reverse ∧
      (text.all fun c => decide (IsInline c)) = true)
    ⟨fun h => ⟨h.1, h.2.1, h.2.2.1, forall_isInline_of_all h.2.2.2⟩,
      fun h => ⟨h.ne_nil, h.front, h.back,
        List.all_eq_true.mpr fun c hc => decide_eq_true (h.inline c hc)⟩⟩

/-! ## Lines of a text -/

/-- The characters of a line are read into it. -/
theorem linesFrom_append_of_inline {start raw behind : List Char} (h : ∀ c ∈ raw, isLineEnd c = false) :
    linesFrom start (raw ++ behind) = linesFrom (raw.reverse ++ start) behind := by
  induction raw generalizing start with
  | nil => rfl
  | cons c raw ih =>
    obtain ⟨hc, hrest⟩ := List.forall_mem_cons.mp h
    have hcr : c ≠ '\r' := by
      rintro rfl
      cases hc
    rw [List.cons_append, linesFrom.eq_3 _ _ _ fun _ he _ => hcr he, if_neg (by simp [hc]), ih hrest,
      List.reverse_cons, List.append_assoc, List.singleton_append]

/-- A line end closes the line, unless it is a CR that an LF follows. -/
theorem linesFrom_append_cons {start raw rest : List Char} {c : Char} (h : ∀ c ∈ raw, isLineEnd c = false)
    (hc : isLineEnd c = true) (hcrlf : c = '\r' → rest.head? ≠ some '\n') :
    linesFrom start (raw ++ c :: rest) = (start.reverse ++ raw) :: linesFrom [] rest := by
  have hsingle : ∀ rest', c = '\r' → rest = '\n' :: rest' → False := by
    rintro rest' hcr rfl
    exact hcrlf hcr rfl
  rw [linesFrom_append_of_inline h, linesFrom.eq_3 _ _ _ hsingle, if_pos hc, List.reverse_append,
    List.reverse_reverse]

theorem linesFrom_append {start raw rest : List Char} (h : ∀ c ∈ raw, isLineEnd c = false) :
    linesFrom start (raw ++ '\n' :: rest) = (start.reverse ++ raw) :: linesFrom [] rest :=
  linesFrom_append_cons h rfl (by simp)

/-- A CR and an LF close a line together. -/
theorem linesFrom_append_crlf {start raw rest : List Char} (h : ∀ c ∈ raw, isLineEnd c = false) :
    linesFrom start (raw ++ '\r' :: '\n' :: rest) = (start.reverse ++ raw) :: linesFrom [] rest := by
  rw [linesFrom_append_of_inline h, linesFrom.eq_2, List.reverse_append, List.reverse_reverse]

/-- What no line end closes is a line if it is not empty. -/
theorem lines_of_inline {raw : List Char} (h : ∀ c ∈ raw, isLineEnd c = false) :
    lines raw = if raw = [] then [] else [raw] := by
  have hread : lines (raw ++ []) = linesFrom (raw.reverse ++ []) [] := linesFrom_append_of_inline h
  rw [List.append_nil, List.append_nil] at hread
  rw [hread, linesFrom]
  simp only [List.isEmpty_iff, List.reverse_eq_nil_iff, List.reverse_reverse]

/-- The lines of a text that is written line by line are those lines. -/
theorem lines_flatMap {raws : List (List Char)} (h : ∀ raw ∈ raws, ∀ c ∈ raw, isLineEnd c = false) :
    lines (raws.flatMap (· ++ ['\n'])) = raws := by
  unfold lines
  induction raws with
  | nil => rfl
  | cons raw raws ih =>
    rw [List.flatMap_cons, List.append_assoc, List.singleton_append,
      linesFrom_append (h raw List.mem_cons_self),
      ih fun raw' hraw => h raw' (List.mem_cons_of_mem _ hraw)]
    rfl

namespace Areas

/-! ## Logical lines -/

/-- A line as it is written. -/
def Line.written (line : Line) : List Char :=
  List.replicate line.indent ' ' ++ line.text

theorem Line.isInline_of_mem_written {line : Line} (h : IsContent line.text) {c : Char}
    (hc : c ∈ line.written) : IsInline c := by
  rcases List.mem_append.mp hc with hc | hc
  · rw [List.eq_of_mem_replicate hc]
    unfold IsInline
    decide
  · exact h.inline c hc

/-- A line that is written is read. -/
theorem Line.read_written {line : Line} (h : IsContent line.text) :
    Line.read line.number line.written = .ok (some line) := by
  have hcomment : line.written.takeWhile (· ≠ '#') = line.written := by
    rw [List.takeWhile_eq_self_iff]
    exact fun c hc => decide_eq_true (isInline_of_mem_written h hc).1
  have htrim : trimEnd line.written = line.written := by
    unfold trimEnd Line.written
    rw [List.reverse_append, dropWhile_of_stopsAt
      (h.back.append_of_ne_nil fun he => h.ne_nil (List.reverse_eq_nil_iff.mp he)),
      ← List.reverse_append, List.reverse_reverse]
  have hspaces : ∀ c ∈ List.replicate line.indent ' ', decide (c = ' ') = true :=
    fun c hc => decide_eq_true (List.eq_of_mem_replicate hc)
  -- the text begins with no space, so the spaces in front are the indentation
  have hfront : StopsAt (· = ' ') line.text := by
    intro c hc
    refine decide_eq_false ?_
    rintro rfl
    have := h.front ' ' hc
    revert this
    decide
  have htext : line.written.dropWhile (· = ' ') = line.text :=
    dropWhile_append_of_stopsAt hspaces hfront
  unfold Line.read Line.content
  rw [hcomment, htrim]
  dsimp only
  rw [htext]
  obtain ⟨number, indent, text⟩ := line
  cases text with
  | nil => exact absurd rfl h.ne_nil
  | cons c rest =>
    have hblank : isBlank c = false := h.front c rfl
    have hlength : (Line.written ⟨number, indent, c :: rest⟩).length - (rest.length + 1) = indent := by
      rw [Line.written, List.length_append, List.length_replicate, List.length_cons]
      show indent + (rest.length + 1) - (rest.length + 1) = indent
      omega
    show (if isBlank c = true then _ else _) = _
    rw [if_neg (by simp [hblank]), hlength]

/-- Lines whose numbers follow each other, from this one on. -/
def Consecutive : Nat → List Line → Prop
  | _, [] => True
  | number, line :: rest => line.number = number ∧ Consecutive (number + 1) rest

theorem Consecutive.append {number : Nat} {ls ls' : List Line} (h : Consecutive number ls)
    (h' : Consecutive (number + ls.length) ls') : Consecutive number (ls ++ ls') := by
  induction ls generalizing number with
  | nil => exact h'
  | cons line rest ih =>
    refine ⟨h.1, ih h.2 ?_⟩
    rw [List.length_cons] at h'
    rwa [Nat.add_assoc, Nat.add_comm 1]

theorem Line.readAll_written {number : Nat} {ls : List Line} (h : Consecutive number ls)
    (hc : ∀ line ∈ ls, IsContent line.text) :
    Line.readAll number (ls.map Line.written) = .ok ls := by
  have hread : (((ls.map Line.written).zipIdx number).mapM fun p => Line.read p.2 p.1)
      = .ok (ls.map some) := by
    induction ls generalizing number with
    | nil => rfl
    | cons line rest ih =>
      obtain ⟨rfl, hrest⟩ := h
      rw [List.map_cons, List.zipIdx_cons, List.mapM_cons, Line.read_written (hc line List.mem_cons_self),
        ih hrest fun l hl => hc l (List.mem_cons_of_mem _ hl)]
      rfl
  show Except.map (List.filterMap id) _ = _
  rw [hread]
  show Except.ok ((ls.map some).filterMap id) = _
  rw [List.filterMap_map]
  exact congrArg _ List.filterMap_some

/-- Lines are read back from the text that they are written to. -/
theorem readLines_written {ls : List Line} (h : Consecutive 1 ls)
    (hc : ∀ line ∈ ls, IsContent line.text) :
    readLines ((ls.map Line.written).flatMap (· ++ ['\n'])) = .ok ls := by
  unfold readLines
  rw [lines_flatMap, Line.readAll_written h hc]
  intro raw hraw c hmem
  obtain ⟨line, hline, rfl⟩ := List.mem_map.mp hraw
  exact (Line.isInline_of_mem_written (hc line hline) hmem).2

/-! ## Blocks -/

theorem split_append_of_deeper {depth : Nat} {deeper rest : List Line}
    (h : ∀ line ∈ deeper, depth < line.indent) :
    split depth (deeper ++ rest) = (deeper ++ (split depth rest).1, (split depth rest).2) := by
  induction deeper with
  | nil => rfl
  | cons line deeper ih =>
    rw [List.cons_append, split_cons_of_deeper (h line List.mem_cons_self),
      ih fun l hl => h l (List.mem_cons_of_mem _ hl), List.cons_append]

/-- Whether the lines of a block, behind its head, are what is deeper than a depth. -/
def Block.IsAt (depth : Nat) (b : Block) : Prop :=
  ¬depth < b.head.indent ∧ ∀ line ∈ b.inner, depth < line.indent

/-- The lines of blocks are taken apart into those blocks. -/
theorem split_flatMap_lines {depth : Nat} {bs : List Block} (h : ∀ b ∈ bs, b.IsAt depth) :
    split depth (bs.flatMap Block.lines) = ([], bs) := by
  induction bs with
  | nil => rfl
  | cons b rest ih =>
    obtain ⟨hhead, hinner⟩ := h b List.mem_cons_self
    have hrest := ih fun b' hb => h b' (List.mem_cons_of_mem _ hb)
    rw [List.flatMap_cons, Block.lines, List.cons_append, split_cons_of_head hhead,
      split_append_of_deeper hinner, hrest, List.append_nil]

end Areas

end AreaAtlas
