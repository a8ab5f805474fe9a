import AreaAtlas.Place
import AreaAtlas.Proofs.Areas.Layout

/-!
# Two ways to count lines

A text is read by lines that may end in any of ten characters, and places in it are counted by line feeds.
If its white space is plain the two agree: `logicalLines_eq` gives the logical lines by what stands
between line feeds, and `line_ofOffset` says that a place has the number that its line was read with.
-/

namespace AreaAtlas

/-- Whether a character is no white space, or plain white space: a space, a tab, a line feed, or a CR in
front of a line feed. -/
def isPlainBefore (rest : List Char) (c : Char) : Bool :=
  !isBlank c || Place.isGap c || c == '\n' || (c == '\r' && rest.head? == some '\n')

/-- Whether all white space of a text is plain. -/
def isPlainlySpaced : List Char → Bool
  | [] => true
  | c :: rest => isPlainBefore rest c && isPlainlySpaced rest

theorem isPlainlySpaced_cons_iff {c : Char} {rest : List Char} :
    isPlainlySpaced (c :: rest) = true ↔
      (isBlank c = true → Place.isGap c = true ∨ c = '\n' ∨ c = '\r' ∧ rest.head? = some '\n') ∧
        isPlainlySpaced rest = true := by
  rw [isPlainlySpaced, Bool.and_eq_true]
  refine and_congr ?_ Iff.rfl
  unfold isPlainBefore
  cases isBlank c with
  | false => simp
  | true => simp [or_assoc]

/-- What stands in front of the first line feed. -/
def firstLine (text : List Char) : List Char :=
  text.takeWhile (· ≠ '\n')

theorem firstLine_cons {c : Char} (h : c ≠ '\n') (rest : List Char) :
    firstLine (c :: rest) = c :: firstLine rest :=
  List.takeWhile_cons_of_pos (decide_eq_true h)

theorem firstLine_append {front : List Char} (h : '\n' ∉ front) (rest : List Char) :
    firstLine (front ++ rest) = front ++ firstLine rest := by
  refine List.takeWhile_append_of_pos ?_
  intro c hc
  refine decide_eq_true ?_
  rintro rfl
  exact h hc

/-! ## Logical lines between line feeds -/

theorem filterMap_zipIdx_cons {α β : Type} (f : α × Nat → Option β) (number : Nat) (a : α)
    (l : List α) : ((a :: l).zipIdx number).filterMap f
      = (f (a, number)).toList ++ (l.zipIdx (number + 1)).filterMap f := by
  rw [List.zipIdx_cons, List.filterMap_cons]
  cases f (a, number) with
  | none => rfl
  | some b => rfl

namespace Areas

/-- White space behind a line does not count. -/
theorem logicalLine?_append_blank (number : Nat) {raw : List Char} {c : Char}
    (h : isBlank c = true) : logicalLine? number (raw ++ [c]) = logicalLine? number raw := by
  have hc : c ≠ '#' := by
    rintro rfl
    cases h
  have hcut : [c].takeWhile (fun d => decide (d ≠ '#')) = [c] := by simp [hc]
  have hcontent : Line.content (raw ++ [c]) = Line.content raw := by
    unfold Line.content
    rw [List.takeWhile_append]
    split
    · next hlength =>
      -- there is no comment, so the white space is at the back of the text
      rw [(List.takeWhile_prefix _).eq_of_length hlength, hcut, trimEnd_append_blank h]
    · rfl
  unfold logicalLine?
  rw [hcontent]

/-- The logical lines among lines that begin here and are numbered from here on. -/
def linesAt (number : Nat) (starts : List (Nat × List Char)) : List Line :=
  (starts.zipIdx number).filterMap fun p => logicalLine? p.2 (firstLine p.1.2)

theorem linesAt_cons (number offset : Nat) (text : List Char) (starts : List (Nat × List Char)) :
    linesAt number ((offset, text) :: starts)
      = (logicalLine? number (firstLine text)).toList ++ linesAt (number + 1) starts :=
  filterMap_zipIdx_cons _ number (offset, text) starts

/-- **Lines that are read and lines between line feeds agree**, from the current line on. -/
theorem filterMap_linesFrom {start text : List Char} (h : isPlainlySpaced text = true)
    (number offset : Nat) :
    ((linesFrom start text).zipIdx number).filterMap (fun p => logicalLine? p.2 p.1)
      = (logicalLine? number (start.reverse ++ firstLine text)).toList ++
        linesAt (number + 1) (Place.behindLineFeeds offset text) := by
  induction start, text using linesFrom.induct generalizing number offset with
  | case1 start hempty =>
    rw [List.isEmpty_iff.mp hempty]
    rfl
  | case2 start hempty =>
    rw [linesFrom, if_neg hempty, filterMap_zipIdx_cons, firstLine, List.takeWhile_nil,
      List.append_nil start.reverse]
    rfl
  | case3 start rest ih =>
    have hcr : firstLine ('\r' :: '\n' :: rest) = ['\r'] := rfl
    have hstarts : Place.behindLineFeeds offset ('\r' :: '\n' :: rest)
        = (offset + 2, rest) :: Place.behindLineFeeds (offset + 2) rest := rfl
    have hblank : isBlank '\r' = true := by decide
    have hrest := (isPlainlySpaced_cons_iff.mp (isPlainlySpaced_cons_iff.mp h).2).2
    rw [linesFrom.eq_2, filterMap_zipIdx_cons, ih hrest (number + 1) (offset + 2), hcr,
      logicalLine?_append_blank number hblank, hstarts, linesAt_cons]
    rfl
  | case4 start c rest hcrlf hend ih =>
    obtain ⟨hplain, hrest⟩ := isPlainlySpaced_cons_iff.mp h
    -- a line feed is the only plain white space that ends a line
    obtain rfl : c = '\n' := by
      rcases hplain (isBlank_of_isLineEnd hend) with hgap | rfl | ⟨rfl, hhead⟩
      · rcases Bool.or_eq_true_iff.mp hgap with hc | hc
        · rw [beq_iff_eq.mp hc] at hend
          cases hend
        · rw [beq_iff_eq.mp hc] at hend
          cases hend
      · rfl
      · obtain ⟨rest', rfl⟩ := List.head?_eq_some_iff.mp hhead
        exact absurd rfl (hcrlf rest' rfl)
    have hstarts : Place.behindLineFeeds offset ('\n' :: rest)
        = (offset + 1, rest) :: Place.behindLineFeeds (offset + 1) rest := rfl
    have hfirst : firstLine ('\n' :: rest) = [] := rfl
    rw [linesFrom.eq_3 _ _ _ hcrlf, if_pos hend, filterMap_zipIdx_cons, ih hrest (number + 1) (offset + 1),
      hstarts, linesAt_cons, hfirst, List.append_nil start.reverse]
    rfl
  | case5 start c rest hcrlf hend ih =>
    have hc : c ≠ '\n' := by
      rintro rfl
      exact hend rfl
    have hstarts : Place.behindLineFeeds offset (c :: rest)
        = Place.behindLineFeeds (offset + 1) rest := if_neg hc
    rw [linesFrom.eq_3 _ _ _ hcrlf, if_neg hend, ih (isPlainlySpaced_cons_iff.mp h).2 number (offset + 1),
      hstarts, firstLine_cons hc, List.reverse_cons, List.append_assoc]
    rfl

/-- **The logical lines of a plainly spaced text** are those between its line feeds. -/
theorem logicalLines_eq {text : List Char} (h : isPlainlySpaced text = true) :
    logicalLines text = linesAt 1 (Place.lineStarts text) := by
  rw [Place.lineStarts, linesAt_cons]
  exact filterMap_linesFrom h 1 0

end Areas

/-! ## White space within a line -/

theorem isPlainlySpaced_of_append {front rest : List Char}
    (h : isPlainlySpaced (front ++ rest) = true) : isPlainlySpaced rest = true := by
  induction front with
  | nil => exact h
  | cons c front ih => exact ih (isPlainlySpaced_cons_iff.mp h).2

/-- White space between the words of a line is spaces and tabs. -/
theorem isGap_of_mem_content {text : List Char} (h : isPlainlySpaced text = true) {c : Char}
    (hc : c ∈ Areas.Line.content (firstLine text)) (hb : isBlank c = true) :
    Place.isGap c = true := by
  obtain ⟨behind, hraw⟩ := Areas.Line.content_isPrefix (firstLine text)
  have htext : firstLine text ++ text.dropWhile (· ≠ '\n') = text := List.takeWhile_append_dropWhile
  have hline : ∀ d ∈ firstLine text, d ≠ '\n' :=
    fun d hd => of_decide_eq_true (List.mem_takeWhile_imp (p := fun d => decide (d ≠ '\n')) hd)
  obtain ⟨front, back, hcontent⟩ := List.append_of_mem hc
  have hplain := h
  rw [← htext, ← hraw, hcontent, List.append_assoc, List.append_assoc] at hplain
  rcases (isPlainlySpaced_cons_iff.mp (isPlainlySpaced_of_append hplain)).1 hb with
    hgap | rfl | ⟨-, hhead⟩
  · exact hgap
  · exact absurd rfl (hline _ ((Areas.Line.content_isPrefix _).subset hc))
  · cases back with
    | nil =>
      -- nothing that counts follows, but a line does not end in white space
      have hlast : c ∈ (Areas.Line.content (firstLine text)).getLast? := by
        rw [hcontent, List.getLast?_append]
        rfl
      rw [trimEnd_getLast? hlast] at hb
      cases hb
    | cons d back =>
      have hd : d ∈ firstLine text := by
        refine (Areas.Line.content_isPrefix _).subset ?_
        rw [hcontent]
        exact List.mem_append_right _ (List.mem_cons_of_mem _ List.mem_cons_self)
      exact absurd (Option.some.inj hhead) (hline d hd)

/-! ## Offsets -/

namespace Place

/-- A line that begins behind a line feed has as many of them in front as its index says. -/
theorem getElem?_behindLineFeeds {offset : Nat} {text : List Char} {i : Nat}
    {start : Nat × List Char} (h : (behindLineFeeds offset text)[i]? = some start) :
    ∃ front, text = front ++ start.2 ∧ start.1 = offset + front.length ∧
      front.count '\n' = i + 1 := by
  induction text generalizing offset i with
  | nil => cases h
  | cons c rest ih =>
    by_cases hc : c = '\n'
    · subst hc
      have hstarts : behindLineFeeds offset ('\n' :: rest)
          = (offset + 1, rest) :: behindLineFeeds (offset + 1) rest := rfl
      rw [hstarts] at h
      cases i with
      | zero =>
        obtain rfl := Option.some.inj h
        exact ⟨['\n'], rfl, rfl, rfl⟩
      | succ i =>
        obtain ⟨front, hrest, hoffset, hcount⟩ := ih h
        refine ⟨'\n' :: front, by rw [hrest]; rfl, ?_, ?_⟩
        · rw [hoffset, List.length_cons]
          omega
        · rw [List.count_cons_self, hcount]
    · have hstarts : behindLineFeeds offset (c :: rest) = behindLineFeeds (offset + 1) rest := if_neg hc
      rw [hstarts] at h
      obtain ⟨front, hrest, hoffset, hcount⟩ := ih h
      refine ⟨c :: front, by rw [hrest]; rfl, ?_, ?_⟩
      · rw [hoffset, List.length_cons]
        omega
      · rw [List.count_cons_of_ne hc, hcount]

theorem getElem?_lineStarts {text : List Char} {i : Nat} {start : Nat × List Char}
    (h : (lineStarts text)[i]? = some start) :
    ∃ front, text = front ++ start.2 ∧ start.1 = front.length ∧ front.count '\n' = i := by
  cases i with
  | zero =>
    obtain rfl := Option.some.inj h
    exact ⟨[], rfl, rfl, rfl⟩
  | succ i =>
    obtain ⟨front, htext, hoffset, hcount⟩ := getElem?_behindLineFeeds h
    exact ⟨front, htext, by rw [hoffset, Nat.zero_add], hcount⟩

/-- A line of a plainly spaced text is plainly spaced. -/
theorem isPlainlySpaced_of_mem_lineStarts {text : List Char} (h : isPlainlySpaced text = true)
    {start : Nat × List Char} (hstart : start ∈ lineStarts text) :
    isPlainlySpaced start.2 = true := by
  obtain ⟨i, hi⟩ := List.getElem?_of_mem hstart
  obtain ⟨front, htext, -⟩ := getElem?_lineStarts hi
  rw [htext] at h
  exact isPlainlySpaced_of_append h

/-- **The place of a line has the number of the line**, counted from zero. -/
theorem line_ofOffset {text : List Char} {start : Nat × List Char} {number : Nat}
    (h : (start, number) ∈ (lineStarts text).zipIdx 1) :
    (ofOffset text start.1).line + 1 = number := by
  obtain ⟨hle, -, -⟩ := List.mem_zipIdx h
  have hget := (List.mk_mem_zipIdx_iff_le_and_getElem?_sub.mp h).2
  obtain ⟨front, htext, hoffset, hcount⟩ := getElem?_lineStarts hget
  show (text.take start.1).count '\n' + 1 = number
  rw [htext, hoffset, List.take_left, hcount]
  omega

end Place

end AreaAtlas
