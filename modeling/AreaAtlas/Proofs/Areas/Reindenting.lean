import AreaAtlas.NodeTable
import AreaAtlas.Proofs.Areas.Relabeling
import AreaAtlas.Proofs.Areas.Writing

/-!
# Other spaces in front of lines

Lines may be indented by more spaces or by fewer, as long as lines at depth zero stay there and of two
depths the greater stays the greater.  Everything that is read stays the same then, faults included:
`Logic.read_reindent`.  The text is changed line by line, as it is read, and its line ends are kept.
-/

namespace AreaAtlas

namespace Areas

/-- A line with `depth k` spaces in front in place of `k`. -/
def Line.reindent (depth : Nat → Nat) (raw : List Char) : List Char :=
  List.replicate (depth (raw.takeWhile (· = ' ')).length) ' ' ++ raw.dropWhile (· = ' ')

/-- A text whose lines have other spaces in front.  Between a CR and an LF there is no space to replace. -/
def reindent (depth : Nat → Nat) (text : List Char) : List Char :=
  let line := Line.reindent depth (text.takeWhile fun c => !isLineEnd c)
  match _end : text.dropWhile fun c => !isLineEnd c with
  | [] => line
  | c :: rest => line ++ c :: reindent depth rest
termination_by text.length
decreasing_by
  have hlength := (List.dropWhile_sublist (l := text) fun c => !isLineEnd c).length_le
  rw [_end, List.length_cons] at hlength
  omega

/-! ## Single lines -/

/-- How a line is read that begins with `n` spaces: the number of them is its depth, and nothing else. -/
theorem Line.read_append {rest : List Char} (h : StopsAt (· = ' ') rest) (number n : Nat) :
    Line.read number (List.replicate n ' ' ++ rest) = match Line.content rest with
      | [] => .ok none
      | c :: more => if isBlank c then .error (.inAreas number .indentationNotSpaces)
          else .ok (some ⟨number, n, c :: more⟩) := by
  have hspaces : ∀ c ∈ List.replicate n ' ', decide (c = ' ') = true :=
    fun c hc => decide_eq_true (List.eq_of_mem_replicate hc)
  unfold Line.read
  rw [Line.content_append]
  cases hcontent : Line.content rest with
  | nil => rfl
  | cons c more =>
    have hstops : StopsAt (· = ' ') (c :: more) := hcontent ▸ Line.stopsAt_content h
    have hlength : (List.replicate n ' ' ++ c :: more).length - (more.length + 1) = n := by
      rw [List.length_append, List.length_replicate, List.length_cons]
      omega
    rw [if_neg (List.cons_ne_nil c more)]
    dsimp only
    rw [dropWhile_append_of_stopsAt hspaces hstops]
    dsimp only
    rw [hlength]

theorem Line.isLineEnd_reindent {depth : Nat → Nat} {raw : List Char}
    (h : ∀ c ∈ raw, isLineEnd c = false) : ∀ c ∈ Line.reindent depth raw, isLineEnd c = false := by
  intro c hc
  rcases List.mem_append.mp hc with hc | hc
  · rw [List.eq_of_mem_replicate hc]
    decide
  · exact h c ((List.dropWhile_suffix _).subset hc)

/-! ## Whole texts -/

namespace Relabeling

/-- The numbers as they are, and other depths. -/
def ofDepth {depth : Nat → Nat} (hmono : StrictMono depth) (hzero : depth 0 = 0) : Relabeling where
  number := id
  depth := depth
  strictMono := hmono
  depth_zero := hzero

end Relabeling

section Reindent

variable {depth : Nat → Nat} (hmono : StrictMono depth) (hzero : depth 0 = 0)

include hmono hzero

/-- A line is read at its other depth, and a fault of it is the same. -/
theorem Line.read_reindentLine (number : Nat) (raw : List Char) :
    Line.read number (Line.reindent depth raw)
      = (Line.read number raw).map (Option.map (Relabeling.ofDepth hmono hzero).line) := by
  have hstops : StopsAt (· = ' ') (raw.dropWhile (· = ' ')) := stopsAt_dropWhile
  have hraw : raw = List.replicate (raw.takeWhile (· = ' ')).length ' ' ++ raw.dropWhile (· = ' ') := by
    rw [replicate_length_takeWhile, List.takeWhile_append_dropWhile]
  conv => rhs; rw [hraw, Line.read_append hstops]
  rw [Line.reindent, Line.read_append hstops]
  cases Line.content (raw.dropWhile (· = ' ')) with
  | nil => rfl
  | cons c more =>
    by_cases hc : isBlank c = true
    · simp only [hc, if_true]
      rfl
    · simp only [hc]
      rfl

theorem Line.head?_reindent (raw : List Char) : (Line.reindent depth raw).head? = raw.head? := by
  unfold Line.reindent
  cases raw with
  | nil => simp [hzero]
  | cons c rest =>
    by_cases hc : c = ' '
    · subst hc
      rw [List.takeWhile_cons_of_pos (by simp), List.length_cons]
      -- some space is left in front, as only no spaces become none
      obtain ⟨n, hn⟩ : ∃ n, depth ((rest.takeWhile (· = ' ')).length + 1) = n + 1 := by
        refine Nat.exists_eq_succ_of_ne_zero (Nat.pos_iff_ne_zero.mp ?_)
        rw [← hzero]
        exact hmono (Nat.succ_pos _)
      rw [hn]
      rfl
    · rw [List.takeWhile_cons_of_neg (by simpa using hc), List.dropWhile_cons_of_neg (by simpa using hc),
        List.length_nil, hzero]
      rfl

theorem head?_reindent (text : List Char) : (reindent depth text).head? = text.head? := by
  have htext : text.takeWhile (fun c => !isLineEnd c) ++ text.dropWhile (fun c => !isLineEnd c) = text :=
    List.takeWhile_append_dropWhile
  rw [reindent]
  split
  · next hend =>
    rw [hend, List.append_nil] at htext
    rw [Line.head?_reindent hmono hzero, htext]
  · next c rest hend =>
    rw [hend] at htext
    conv => rhs; rw [← htext]
    rw [List.head?_append, List.head?_append, Line.head?_reindent hmono hzero]
    rfl

/-- **The lines of the text** are the lines with the other spaces in front. -/
theorem lines_reindent (text : List Char) :
    lines (reindent depth text) = (lines text).map (Line.reindent depth) := by
  have hinline : ∀ text : List Char, ∀ c ∈ text.takeWhile (fun c => !isLineEnd c), isLineEnd c = false := by
    intro text c hc
    simpa using List.mem_takeWhile_imp hc
  have hsplit : ∀ text : List Char,
      text.takeWhile (fun c => !isLineEnd c) ++ text.dropWhile (fun c => !isLineEnd c) = text :=
    fun _ => List.takeWhile_append_dropWhile
  fun_induction reindent depth text with
  | case1 text line hend =>
    have htext : text.takeWhile (fun c => !isLineEnd c) = text := by
      have h := hsplit text
      rwa [hend, List.append_nil] at h
    have hraw := hinline text
    have hempty : Line.reindent depth text = [] ↔ text = [] := by
      rw [← List.head?_eq_none_iff, Line.head?_reindent hmono hzero, List.head?_eq_none_iff]
    show lines (Line.reindent depth (text.takeWhile fun c => !isLineEnd c)) = _
    rw [htext] at hraw ⊢
    rw [lines_of_inline (Line.isLineEnd_reindent hraw), lines_of_inline hraw]
    simp only [hempty]
    split
    · rfl
    · rfl
  | case2 text line c rest hend ih =>
    have htext := hsplit text
    have hraw := hinline text
    have hline : ∀ c ∈ line, isLineEnd c = false := Line.isLineEnd_reindent hraw
    have hc : isLineEnd c = true := by
      have hstops : StopsAt (fun c => !isLineEnd c) (text.dropWhile fun c => !isLineEnd c) :=
        stopsAt_dropWhile
      rw [hend, stopsAt_cons_iff] at hstops
      simpa using hstops
    rw [hend] at htext
    conv => rhs; rw [← htext]
    unfold lines at ih ⊢
    by_cases hcrlf : c = '\r' ∧ rest.head? = some '\n'
    · -- the two close the line together, and an empty one between them is none
      obtain ⟨rfl, hhead⟩ := hcrlf
      obtain ⟨rest', rfl⟩ := List.head?_eq_some_iff.mp hhead
      obtain ⟨behind, hbehind⟩ : ∃ behind, reindent depth ('\n' :: rest') = '\n' :: behind :=
        List.head?_eq_some_iff.mp (head?_reindent hmono hzero _)
      have hrest : [] :: linesFrom [] behind = ([] :: linesFrom [] rest').map (Line.reindent depth) := by
        rw [hbehind] at ih
        exact ih
      rw [hbehind, linesFrom_append_crlf hline, linesFrom_append_crlf hraw, List.map_cons,
        (List.cons.inj hrest).2]
      rfl
    · have hrest : c = '\r' → rest.head? ≠ some '\n' := fun hcr hhead => hcrlf ⟨hcr, hhead⟩
      have hrest' : c = '\r' → (reindent depth rest).head? ≠ some '\n' := by
        rwa [head?_reindent hmono hzero]
      rw [linesFrom_append_cons hline hc hrest', linesFrom_append_cons hraw hc hrest, ih]
      rfl

/-- The logical lines stand at their other depths. -/
theorem readLines_reindent (text : List Char) : readLines (reindent depth text)
    = (readLines text).map (List.map (Relabeling.ofDepth hmono hzero).line) := by
  have hread : ((lines text).zipIdx 1 |>.map (Prod.map (Line.reindent depth) id)).mapM
        (fun p => Line.read p.2 p.1)
      = Except.bimap (List.map (Option.map (Relabeling.ofDepth hmono hzero).line)) id
        (((lines text).zipIdx 1).mapM fun p => Line.read p.2 p.1) := by
    refine Except.mapM_map_eq_bimap ?_
    rintro ⟨raw, number⟩ -
    show Line.read number (Line.reindent depth raw) = _
    rw [Line.read_reindentLine hmono hzero]
    cases Line.read number raw with
    | error e => rfl
    | ok line => rfl
  unfold readLines Line.readAll
  rw [lines_reindent hmono hzero, List.zipIdx_map, hread]
  cases ((lines text).zipIdx 1).mapM fun p => Line.read p.2 p.1 with
  | error e => rfl
  | ok lines => exact congrArg Except.ok (Relabeling.filterMap_id_map_map _ lines)

/-- So do the blocks. -/
theorem readBlocks_reindent (text : List Char) : readBlocks (reindent depth text)
    = (readBlocks text).map (List.map (Relabeling.ofDepth hmono hzero).block) := by
  unfold readBlocks
  rw [readLines_reindent hmono hzero]
  cases readLines text with
  | error e => rfl
  | ok lines =>
    dsimp only [Except.map, bind, Except.bind]
    rw [Relabeling.split_zero_map]
    cases split 0 lines with
    | mk front blocks =>
      cases front with
      | nil => rfl
      | cons line front => rfl

/-- **Declarations, and faults, are the same**: the depths are nowhere in them. -/
theorem readDeclarations_reindent (text : List Char) :
    readDeclarations (reindent depth text) = readDeclarations text := by
  have hentry : (Relabeling.ofDepth hmono hzero).entry = id := rfl
  have hdeclaration : (Relabeling.ofDepth hmono hzero).declaration = id := by
    funext d
    unfold Relabeling.declaration
    rw [hentry, List.map_id]
    rfl
  have hblock : Block.readDeclaration ∘ (Relabeling.ofDepth hmono hzero).block
      = Block.readDeclaration := by
    funext b
    rw [Function.comp_apply, Relabeling.readDeclaration_block, hdeclaration, Option.map_id]
    cases b.readDeclaration with
    | error e => rfl
    | ok d => rfl
  unfold readDeclarations
  rw [readBlocks_reindent hmono hzero]
  cases readBlocks text with
  | error e => rfl
  | ok blocks =>
    show ((blocks.map (Relabeling.ofDepth hmono hzero).block).mapM Block.readDeclaration >>= _)
      = (blocks.mapM Block.readDeclaration >>= _)
    rw [List.mapM_map, hblock]

end Reindent

end Areas

/-- **Only the order of depths matters.**  Documents are read in the same way, with the same result or the
same fault, if the lines of the areas text are indented by other numbers of spaces in the same order. -/
theorem Logic.read_reindent {depth : Nat → Nat} (hmono : StrictMono depth) (hzero : depth 0 = 0)
    (areas locations states : String) (setting : Difficulty) (validate : Bool) :
    Logic.read (.ofList (Areas.reindent depth areas.toList)) locations states setting validate
      = Logic.read areas locations states setting validate := by
  unfold Logic.read
  rw [String.toList_ofList, Areas.readDeclarations_reindent hmono hzero]

/-- Three spaces for each one, with lines that end in three ways, and a last line that is blank. -/
theorem Logic.read_reindent_threefold :
    let depth := fun k => 3 * k
    let areas := "anchor A:\r\n conn B:\x0b  moki # deep\n   deeper\n  gorlek\nanchor B:\r\n nospawn\n "
    let areas' := "anchor A:\r\n   conn B:\x0b      moki # deep\n         deeper\n      gorlek\nanchor B:\r\n" ++
      "   nospawn\n   "
    StrictMono depth ∧ depth 0 = 0 ∧ String.ofList (Areas.reindent depth areas.toList) = areas' ∧
      (Logic.read areas "" "" .moki true).map (·.nodes.map fun n => (n.identifier, n.targets))
        = .ok [("A", [1]), ("B", [])] ∧
      Logic.read (.ofList (Areas.reindent depth areas.toList)) "" "" .moki true
        = Logic.read areas "" "" .moki true := by
  intro depth areas areas'
  have hmono : StrictMono depth := fun a b h => by show 3 * a < 3 * b; omega
  exact ⟨hmono, rfl, by decide +kernel, by decide +kernel,
    Logic.read_reindent hmono rfl areas "" "" .moki true⟩

end AreaAtlas
