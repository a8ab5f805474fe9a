import AreaAtlas.Areas.Document
import AreaAtlas.Proofs.Reading
import AreaAtlas.Proofs.Text.Trim

/-!
# The layout of an areas text

An areas text can be looked at line by line.  Its logical lines are what is left of its lines without
comments and without those that hold nothing else.  A block is then a line with the deeper lines directly
behind it, and taking lines apart into blocks is the same as looking at every line with the lines behind
it: `split_snd` says so.
-/

namespace AreaAtlas.Areas

/-! ## Logical lines -/

/-- The logical line that a line of this number holds, whatever its text begins with. -/
def logicalLine? (number : Nat) (raw : List Char) : Option Line :=
  if Line.content raw = [] then none
  else some ⟨number, ((Line.content raw).takeWhile (· = ' ')).length,
    (Line.content raw).dropWhile (· = ' ')⟩

/-- The logical lines of a text: its lines, cut at the first `#`, without white space at the back, and
without those of which nothing is left. -/
def logicalLines (text : List Char) : List Line :=
  ((lines text).zipIdx 1).filterMap fun (raw, number) => logicalLine? number raw

/-- A line begins with what counts of it. -/
theorem Line.content_isPrefix (raw : List Char) : Line.content raw <+: raw :=
  (trimEnd_isPrefix _).trans (List.takeWhile_prefix _)

/-- Where a line begins, there begins what counts of it. -/
theorem Line.stopsAt_content {p : Char → Bool} {raw : List Char} (h : StopsAt p raw) :
    StopsAt p (Line.content raw) := by
  obtain ⟨behind, hraw⟩ := Line.content_isPrefix raw
  intro c hc
  apply h
  rw [← hraw]
  exact List.mem_head?_append_of_mem_head? hc

/-- What a line holds that begins with spaces. -/
theorem Line.content_append (n : Nat) (rest : List Char) :
    Line.content (List.replicate n ' ' ++ rest)
      = if Line.content rest = [] then [] else List.replicate n ' ' ++ Line.content rest := by
  have hcomment : (List.replicate n ' ' ++ rest).takeWhile (· ≠ '#')
      = List.replicate n ' ' ++ rest.takeWhile (· ≠ '#') := by
    refine List.takeWhile_append_of_pos ?_
    intro c hc
    rw [List.eq_of_mem_replicate hc]
    decide
  unfold Line.content
  rw [hcomment]
  split
  · next hnil =>
    -- white space is all there is
    refine trimEnd_eq_nil_iff.mpr ?_
    intro c hc
    rcases List.mem_append.mp hc with hc | hc
    · rw [List.eq_of_mem_replicate hc]
      decide
    · exact trimEnd_eq_nil_iff.mp hnil c hc
  · next hne => exact trimEnd_append_of_ne_nil hne

/-- The logical line of a line that begins with `n` spaces. -/
theorem logicalLine?_append {rest : List Char} (h : StopsAt (· = ' ') rest) (number n : Nat) :
    logicalLine? number (List.replicate n ' ' ++ rest) = match Line.content rest with
      | [] => none
      | c :: more => some ⟨number, n, c :: more⟩ := by
  have hspaces : ∀ c ∈ List.replicate n ' ', decide (c = ' ') = true :=
    fun c hc => decide_eq_true (List.eq_of_mem_replicate hc)
  have hstops := Line.stopsAt_content h
  unfold logicalLine?
  rw [Line.content_append]
  cases hcontent : Line.content rest with
  | nil => rfl
  | cons c more =>
    rw [hcontent] at hstops
    rw [if_neg (List.cons_ne_nil c more), if_neg (by simp), takeWhile_append_of_stopsAt hspaces hstops,
      dropWhile_append_of_stopsAt hspaces hstops, List.length_replicate]

/-- No white space follows the indentation of a line. -/
def Line.IsPlain (line : Line) : Prop :=
  StopsAt isBlank line.text

theorem getLast?_dropWhile {p : Char → Bool} {text : List Char} {c : Char}
    (h : c ∈ text.getLast?) (hc : p c = false) : c ∈ (text.dropWhile p).getLast? := by
  have hsplit : text.takeWhile p ++ text.dropWhile p = text := List.takeWhile_append_dropWhile
  cases hd : text.dropWhile p with
  | nil =>
    -- then the last character is in the class
    have hp := List.mem_of_mem_getLast? h
    rw [List.dropWhile_eq_nil_iff] at hd
    rw [hd c hp] at hc
    cases hc
  | cons d rest =>
    rw [← hsplit, List.getLast?_append, hd] at h
    simpa using h

theorem getLast?_dropSpaces {raw : List Char} (h : Line.content raw ≠ []) :
    ∃ c ∈ ((Line.content raw).dropWhile (· = ' ')).getLast?, isBlank c = false := by
  obtain ⟨c, hc⟩ : ∃ c, (Line.content raw).getLast? = some c :=
    Option.isSome_iff_exists.mp (by rw [List.getLast?_isSome]; exact h)
  have hb : isBlank c = false := trimEnd_getLast? hc
  refine ⟨c, getLast?_dropWhile hc ?_, hb⟩
  refine decide_eq_false ?_
  rintro rfl
  cases hb

theorem Line.read_readsAs :
    ReadsAs (fun p : List Char × Nat => Line.read p.2 p.1)
      (fun p => ∀ line ∈ logicalLine? p.2 p.1, line.IsPlain)
      (fun p => logicalLine? p.2 p.1) := by
  rintro ⟨raw, n⟩ b
  unfold logicalLine? Line.read
  by_cases hc : Line.content raw = []
  · simp [hc, eq_comm]
  · obtain ⟨l, hl, -⟩ := getLast?_dropSpaces hc
    -- the depth is read off as the number of characters that the spaces take up
    have hlen : ((Line.content raw).takeWhile (· = ' ')).length
        = (Line.content raw).length - ((Line.content raw).dropWhile (· = ' ')).length := by
      have := congrArg List.length
        (List.takeWhile_append_dropWhile (p := (· = ' ')) (l := Line.content raw))
      rw [List.length_append] at this
      omega
    simp only [hc, if_false, hlen, Option.mem_def, Option.some.injEq, forall_eq', Line.IsPlain]
    cases hd : (Line.content raw).dropWhile (· = ' ') with
    | nil =>
      rw [hd] at hl
      cases hl
    | cons c rest =>
      rw [stopsAt_cons_iff]
      cases hb : isBlank c with
      | true => simp [hb]
      | false =>
        simp only [hb, Bool.false_eq_true, if_false, true_and, Except.ok.injEq]
        exact eq_comm

/-- Lines are read unless white space follows the indentation of one. -/
theorem readLines_readsAs :
    ReadsAs readLines (fun text => ∀ line ∈ logicalLines text, line.IsPlain) logicalLines := by
  intro text b
  have h : readLines text = .ok b ↔
      (∀ p ∈ (lines text).zipIdx 1, ∀ line ∈ logicalLine? p.2 p.1, line.IsPlain) ∧
        b = (((lines text).zipIdx 1).map fun p => logicalLine? p.2 p.1).filterMap id :=
    (Line.read_readsAs.mapM.map (List.filterMap id)) ((lines text).zipIdx 1) b
  have hvalue : (((lines text).zipIdx 1).map fun p => logicalLine? p.2 p.1).filterMap id
      = logicalLines text := by
    rw [List.filterMap_map]
    rfl
  rw [h, hvalue]
  refine and_congr ?_ Iff.rfl
  simp only [logicalLines, List.mem_filterMap, Option.mem_def]
  constructor
  · rintro hp line ⟨p, hm, hline⟩
    exact hp p hm line hline
  · intro hp p hm line hline
    exact hp line ⟨p, hm, hline⟩

/-! ## Lines with the lines behind them -/

/-- Every line with the lines behind it. -/
def suffixes : List Line → List (Line × List Line)
  | [] => []
  | line :: rest => (line, rest) :: suffixes rest

/-- The lines directly behind that are deeper than a depth. -/
def deeper (depth : Nat) (behind : List Line) : List Line :=
  behind.takeWhile (depth < ·.indent)

theorem mem_of_mem_suffixes {lines : List Line} {p : Line × List Line} (h : p ∈ suffixes lines) :
    p.1 ∈ lines := by
  induction lines with
  | nil => cases h
  | cons line rest ih =>
    rcases List.mem_cons.mp h with rfl | h
    · exact List.mem_cons_self
    · exact List.mem_cons_of_mem _ (ih h)

theorem exists_mem_suffixes {lines : List Line} {line : Line} (h : line ∈ lines) :
    ∃ behind, (line, behind) ∈ suffixes lines := by
  induction lines with
  | nil => cases h
  | cons first rest ih =>
    rcases List.mem_cons.mp h with rfl | h
    · exact ⟨rest, List.mem_cons_self⟩
    · obtain ⟨behind, hb⟩ := ih h
      exact ⟨behind, List.mem_cons_of_mem _ hb⟩

/-- The lines in front of a line with the lines behind it. -/
theorem exists_eq_of_mem_suffixes {lines : List Line} {p : Line × List Line}
    (h : p ∈ suffixes lines) : ∃ front, lines = front ++ p.1 :: p.2 := by
  induction lines with
  | nil => cases h
  | cons line rest ih =>
    rcases List.mem_cons.mp h with rfl | h
    · exact ⟨[], rfl⟩
    · obtain ⟨front, hfront⟩ := ih h
      exact ⟨line :: front, congrArg (line :: ·) hfront⟩

theorem map_fst_suffixes (lines : List Line) : (suffixes lines).map (·.1) = lines := by
  induction lines with
  | nil => rfl
  | cons line rest ih => exact congrArg (line :: ·) ih

/-- Some of the lines, each with the lines behind it. -/
theorem map_fst_filter_suffixes (p : Line → Bool) (lines : List Line) :
    ((suffixes lines).filter fun s => p s.1).map (·.1) = lines.filter p := by
  conv => rhs; rw [← map_fst_suffixes lines]
  rw [List.filter_map]
  rfl

theorem lt_indent_of_mem_deeper {depth : Nat} {behind : List Line} {line : Line}
    (h : line ∈ deeper depth behind) : depth < line.indent :=
  of_decide_eq_true (List.mem_takeWhile_imp (p := fun line : Line => decide (depth < line.indent)) h)

theorem deeper_eq_nil_iff {depth : Nat} {behind : List Line} :
    deeper depth behind = [] ↔ ∀ line ∈ behind.head?, ¬depth < line.indent := by
  unfold deeper
  cases behind with
  | nil => simp
  | cons line rest =>
    by_cases h : depth < line.indent
    · simp [h]
    · simp [Nat.not_lt.mp h]

/-! ## Blocks -/

/-- The lines in front of the first block are those that are deeper. -/
theorem split_fst (depth : Nat) (lines : List Line) : (split depth lines).1 = deeper depth lines := by
  induction lines with
  | nil => rfl
  | cons line rest ih =>
    unfold deeper at ih ⊢
    by_cases h : depth < line.indent
    · rw [split_cons_of_deeper h, List.takeWhile_cons_of_pos (by simpa using h), ih]
    · rw [split_cons_of_head h, List.takeWhile_cons_of_neg (by simpa using h)]

/-- A block begins at every line that is not deeper, and goes on as long as lines are. -/
theorem split_snd (depth : Nat) (lines : List Line) :
    (split depth lines).2 =
      ((suffixes lines).filter fun p => ¬depth < p.1.indent).map
        fun p => ⟨p.1, deeper depth p.2⟩ := by
  induction lines with
  | nil => rfl
  | cons line rest ih =>
    by_cases h : depth < line.indent
    · rw [split_cons_of_deeper h, suffixes, List.filter_cons_of_neg (by simpa using h), ih]
    · rw [split_cons_of_head h, suffixes, List.filter_cons_of_pos (by simpa using h), List.map_cons,
        split_fst, ih]

end AreaAtlas.Areas
