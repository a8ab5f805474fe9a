import AreaAtlas.Proofs.Areas.Inert
import AreaAtlas.Proofs.NodeTable.Order
import Mathlib.Logic.Relation

/-!
# Edits that change nothing

An areas text may be edited where nothing of it is looked at: blank lines and comments, the bodies of
requirements and regions, whole requirements and regions, flags, and entries that do not survive at the
difficulty.  `Areas.Edit` says what may be done at a time, with the text as it is then.  Each edit keeps
what the lines of the text say, so after any number of them the node table is the same: `Logic.read_of_edits`.
-/

namespace AreaAtlas

namespace Areas

variable {setting : Difficulty} {text text' : List Char}

/-! ## Texts and their last lines -/

/-- What follows a line does not depend on it. -/
theorem exists_filterMap_linesFrom {α : Type} {f : List Char → Option α} (hf : f [] = none)
    {behind : List Char} (hbehind : ∀ c ∈ behind.head?, isLineEnd c = true) :
    ∃ rest, ∀ start, (linesFrom start behind).filterMap f = (f start.reverse).toList ++ rest := by
  have hcons : ∀ raw raws, (raw :: raws).filterMap f = (f raw).toList ++ raws.filterMap f := by
    intro raw raws
    rw [List.filterMap_eq_flatMap_toList, List.filterMap_eq_flatMap_toList, List.flatMap_cons]
  cases behind with
  | nil =>
    refine ⟨[], fun start => ?_⟩
    cases start with
    | nil => exact (congrArg (fun o => o.toList ++ []) hf).symm
    | cons c start => exact hcons (c :: start).reverse []
  | cons c behind =>
    have hc : isLineEnd c = true := hbehind c rfl
    by_cases hcrlf : c = '\r' ∧ ∃ rest, behind = '\n' :: rest
    · obtain ⟨rfl, rest, rfl⟩ := hcrlf
      exact ⟨(linesFrom [] rest).filterMap f, fun start => hcons _ _⟩
    · refine ⟨(linesFrom [] behind).filterMap f, fun start => ?_⟩
      rw [linesFrom.eq_3 _ _ _ fun rest hc he => hcrlf ⟨hc, rest, he⟩, if_pos hc, hcons]

/-- A line in front of a line end: its logical line, and then the same whatever it is. -/
theorem exists_bareLines_append {behind : List Char} (hbehind : ∀ c ∈ behind.head?, isLineEnd c = true) :
    ∃ rest, ∀ raw, (∀ c ∈ raw, isLineEnd c = false) →
      bareLines (raw ++ behind) = (logicalLine? 0 raw).toList ++ rest := by
  obtain ⟨rest, hrest⟩ := exists_filterMap_linesFrom (f := logicalLine? 0) rfl hbehind
  refine ⟨rest, fun raw hraw => ?_⟩
  rw [bareLines_eq, lines, linesFrom_append_of_inline hraw, hrest, List.append_nil, List.reverse_reverse]

/-- A text is whole lines and the beginning of a line. -/
theorem exists_eq_append_inline (text : List Char) : ∃ front raw, text = front ++ raw ∧
    (∀ c ∈ front.getLast?, isLineEnd c = true) ∧ ∀ c ∈ raw, isLineEnd c = false := by
  induction text with
  | nil => exact ⟨[], [], rfl, by simp, by simp⟩
  | cons c text ih =>
    obtain ⟨front, raw, rfl, hfront, hraw⟩ := ih
    cases front with
    | cons d front =>
      refine ⟨c :: d :: front, raw, rfl, ?_, hraw⟩
      rwa [List.getLast?_cons_cons]
    | nil =>
      cases hc : isLineEnd c with
      | true =>
        refine ⟨[c], raw, rfl, ?_, hraw⟩
        intro d hd
        rwa [← Option.some.inj hd]
      | false => exact ⟨[], c :: raw, rfl, by simp, List.forall_mem_cons.mpr ⟨hc, hraw⟩⟩

/-- What a line holds ends at the first `#`. -/
theorem takeWhile_append_hash (raw note : List Char) :
    (raw ++ '#' :: note).takeWhile (· ≠ '#') = raw.takeWhile (· ≠ '#') := by
  induction raw with
  | nil => rfl
  | cons c raw ih =>
    rw [List.cons_append, List.takeWhile_cons, List.takeWhile_cons, ih]

/-- The logical line is the same if what a line holds is. -/
theorem logicalLine?_congr {raw raw' : List Char} (h : Line.content raw = Line.content raw') :
    logicalLine? 0 raw = logicalLine? 0 raw' := by
  unfold logicalLine?
  rw [h]

/-- A comment holds nothing. -/
theorem bareLines_comment {front note behind : List Char} (hnote : ∀ c ∈ note, isLineEnd c = false)
    (hbehind : ∀ c ∈ behind.head?, isLineEnd c = true) :
    bareLines (front ++ ('#' :: note ++ behind)) = bareLines (front ++ behind) := by
  obtain ⟨whole, raw, rfl, hwhole, hraw⟩ := exists_eq_append_inline front
  obtain ⟨rest, hrest⟩ := exists_bareLines_append hbehind
  have hcomment : ∀ c ∈ raw ++ '#' :: note, isLineEnd c = false := by
    intro c hc
    rcases List.mem_append.mp hc with hc | hc
    · exact hraw c hc
    · rcases List.mem_cons.mp hc with rfl | hc
      · rfl
      · exact hnote c hc
  have hcontent : Line.content (raw ++ '#' :: note) = Line.content raw := by
    unfold Line.content
    rw [takeWhile_append_hash]
  rw [List.append_assoc, List.append_assoc, bareLines_append (Or.inl hwhole),
    bareLines_append (Or.inl hwhole), ← List.append_assoc, hrest _ hcomment, hrest _ hraw,
    logicalLine?_congr hcontent]

/-- A line feed at the end of a text makes no difference. -/
theorem bareLines_lineFeed (text : List Char) : bareLines (text ++ ['\n']) = bareLines text := by
  obtain ⟨whole, raw, rfl, hwhole, hraw⟩ := exists_eq_append_inline text
  have hend : ∀ behind, (∀ c ∈ behind.head?, isLineEnd c = true) → bareLines behind = [] →
      bareLines (raw ++ behind) = (logicalLine? 0 raw).toList := by
    intro behind hbehind hnone
    obtain ⟨rest, hrest⟩ := exists_bareLines_append hbehind
    have hnil : bareLines ([] ++ behind) = rest := hrest [] (List.forall_mem_nil _)
    rw [hrest raw hraw, ← hnil, List.nil_append, hnone, List.append_nil]
  have hempty := hend [] (by simp) rfl
  have hlineFeed : ∀ c ∈ ['\n'].head?, isLineEnd c = true := by
    rintro c ⟨⟩
    rfl
  rw [List.append_nil] at hempty
  rw [List.append_assoc, bareLines_append (Or.inl hwhole), bareLines_append (Or.inl hwhole), hempty,
    hend ['\n'] hlineFeed rfl]

/-- A line that begins with spaces, and no other white space behind them. -/
def IsIndented (raw : List Char) : Prop :=
  ∃ depth c rest, raw = List.replicate (depth + 1) ' ' ++ c :: rest ∧ isBlank c = false

/-- The logical line of such a line, if it has one, is indented by spaces only. -/
theorem IsIndented.logicalLine? {raw : List Char} (h : IsIndented raw) :
    ∀ line ∈ Areas.logicalLine? 0 raw, 0 < line.indent ∧ line.IsPlain := by
  obtain ⟨depth, c, rest, rfl, hc⟩ := h
  have hspace : StopsAt (· = ' ') (c :: rest) := by
    apply stopsAt_cons
    apply decide_eq_false
    rintro rfl
    cases hc
  have hplain : StopsAt isBlank (Line.content (c :: rest)) := Line.stopsAt_content (stopsAt_cons hc)
  intro line hline
  rw [logicalLine?_append hspace] at hline
  cases hcontent : Line.content (c :: rest) with
  | nil =>
    -- the line is a comment
    rw [hcontent] at hline
    cases hline
  | cons d more =>
    rw [hcontent] at hline
    obtain rfl := Option.some.inj hline
    exact ⟨Nat.succ_pos depth, hcontent ▸ hplain⟩

/-! ## Edits -/

/-- **An edit of an areas text**, at a difficulty.  Whole lines are taken out or put in: what stands in front
of them ends with a line end, and so do they unless nothing follows. -/
inductive Edit (setting : Difficulty) : List Char → List Char → Prop
  /-- Lines that hold nothing but white space and comments are deleted. -/
  | blank {front piece behind : List Char} :
      (∀ c ∈ front.getLast?, isLineEnd c = true) → IsCut piece behind → bareLines piece = [] →
      Edit setting (front ++ (piece ++ behind)) (front ++ behind)
  /-- A `#` is deleted with the rest of its line. -/
  | comment {front note behind : List Char} :
      (∀ c ∈ note, isLineEnd c = false) → (∀ c ∈ behind.head?, isLineEnd c = true) →
      Edit setting (front ++ ('#' :: note ++ behind)) (front ++ behind)
  /-- Lines in a requirement or a region are deleted, or replaced by other lines that are indented. -/
  | body {front old new behind : List Char} {before kept : List Line} {head : Line} :
      (∀ c ∈ front.getLast?, isLineEnd c = true) → IsCut old behind → IsCut new behind →
      bareLines front = before ++ head :: kept → head.OpensSkipped → (∀ line ∈ kept, 0 < line.indent) →
      (∀ line ∈ bareLines old, 0 < line.indent) → (∀ raw ∈ lines new, IsIndented raw) →
      Edit setting (front ++ (old ++ behind)) (front ++ (new ++ behind))
  /-- A requirement or a region is deleted. -/
  | block {front piece behind : List Char} {inner : List Line} {head : Line} :
      (∀ c ∈ front.getLast?, isLineEnd c = true) → IsCut piece behind →
      bareLines piece = head :: inner → head.OpensSkipped → (∀ line ∈ inner, 0 < line.indent) →
      (∀ next ∈ (bareLines behind).head?, next.indent = 0) →
      Edit setting (front ++ (piece ++ behind)) (front ++ behind)
  /-- A flag, or an entry that does not survive, is deleted with the deeper lines behind it.  It stands at
  the depth of the entries of its anchor, and the anchor has another entry, above it or behind it. -/
  | entry {front piece behind : List Char} {before above inner : List Line} {head line : Line} :
      (∀ c ∈ front.getLast?, isLineEnd c = true) → IsCut piece behind →
      bareLines front = before ++ head :: above → head.isAnchor = true → (∀ l ∈ above, 0 < l.indent) →
      (∀ first ∈ above.head?, first.indent = line.indent) →
      bareLines piece = line :: inner → 0 < line.indent → (∀ deep ∈ inner, line.indent < deep.indent) →
      (∀ next ∈ (bareLines behind).head?, next.indent ≤ line.indent) →
      (above ≠ [] ∨ ∃ next ∈ (bareLines behind).head?, 0 < next.indent) →
      (String.ofList (line.text.takeWhile isWord) ∈ flags ∨
        ∃ e, Block.readEntry ⟨line, inner⟩ = .ok (some e) ∧ e.isPermitted setting = false) →
      Edit setting (front ++ (piece ++ behind)) (front ++ behind)
  /-- A line feed is put at the end. -/
  | lineFeed {front : List Char} : Edit setting front (front ++ ['\n'])
  /-- A line feed is taken off the end. -/
  | noLineFeed {front : List Char} : Edit setting (front ++ ['\n']) front

/-- The lines of a text with a piece of whole lines in it. -/
theorem bareLines_piece {front piece behind : List Char}
    (hfront : ∀ c ∈ front.getLast?, isLineEnd c = true) (hpiece : IsCut piece behind) :
    bareLines (front ++ (piece ++ behind)) = bareLines front ++ (bareLines piece ++ bareLines behind) := by
  rw [bareLines_append (Or.inl hfront), bareLines_append hpiece]

theorem bareLines_indented {new : List Char} (h : ∀ raw ∈ lines new, IsIndented raw) :
    ∀ line ∈ bareLines new, 0 < line.indent ∧ line.IsPlain := by
  intro line hline
  rw [bareLines_eq] at hline
  obtain ⟨raw, hraw, hline⟩ := List.mem_filterMap.mp hline
  exact (h raw hraw).logicalLine? line hline

/-- **An edit keeps what the lines say.** -/
theorem Edit.keeps (h : Edit setting text text') : Keeps setting (bareLines text) (bareLines text') := by
  cases h with
  | blank hfront hpiece hnone =>
    rw [bareLines_piece hfront hpiece, bareLines_append (Or.inl hfront), hnone]
    exact keeps_refl _
  | comment hnote hbehind =>
    rw [bareLines_comment hnote hbehind]
    exact keeps_refl _
  | @body front old new behind before kept head hfront hold hnew hlines hhead hkept hinner hinner' =>
    rw [bareLines_piece hfront hold, bareLines_piece hfront hnew, hlines]
    have hkeeps : Keeps setting (before ++ head :: ((kept ++ bareLines old) ++ bareLines behind))
        (before ++ head :: ((kept ++ bareLines new) ++ bareLines behind)) := by
      apply keeps_of_body hhead
      · intro line hline
        rcases List.mem_append.mp hline with hline | hline
        · exact hkept line hline
        · exact hinner line hline
      · intro line hline
        rcases List.mem_append.mp hline with hline | hline
        · exact Or.inl (List.mem_append_left _ hline)
        · exact Or.inr (bareLines_indented hinner' line hline)
    simp only [List.append_assoc, List.cons_append] at hkeeps ⊢
    exact hkeeps
  | @block front piece behind inner head hfront hpiece hlines hhead hinner hbehind =>
    rw [bareLines_piece hfront hpiece, bareLines_append (Or.inl hfront), hlines]
    apply keeps_of_block hhead hinner
    rw [split_fst, deeper_eq_nil_iff]
    intro next hnext
    rw [hbehind next hnext]
    exact Nat.lt_irrefl 0
  | @entry front piece behind before above inner head line hfront hpiece hlines hhead habove hdepth hpieces
      hpositive hinner hbehind hothers hdropped =>
    have hentry := isEntryWithin_of_behind hdepth hinner hbehind hothers
    have hdrop : line.IsDropped setting inner := by
      rcases hdropped with hflag | ⟨e, hread, he⟩
      · exact Line.isDropped_of_flag hflag inner
      · exact Line.isDropped_of_readEntry hread he
    have hkeeps : Keeps setting (before ++ head :: (above ++ line :: (inner ++ bareLines behind)))
        (before ++ head :: (above ++ bareLines behind)) :=
      keeps_of_entry (Line.indent_of_isAnchor hhead) habove hpositive hentry hdrop
    rw [bareLines_piece hfront hpiece, bareLines_append (Or.inl hfront), hlines, hpieces]
    simp only [List.append_assoc, List.cons_append] at hkeeps ⊢
    exact hkeeps
  | lineFeed =>
    rw [bareLines_lineFeed]
    exact keeps_refl _
  | noLineFeed =>
    rw [bareLines_lineFeed]
    exact keeps_refl _

/-- Any number of edits keep what the lines say. -/
theorem keeps_of_edits (h : Relation.ReflTransGen (Edit setting) text text') :
    Keeps setting (bareLines text) (bareLines text') := by
  induction h with
  | refl => exact keeps_refl _
  | tail _ hedit ih => exact ih.trans hedit.keeps

end Areas

/-! ## The node table -/

namespace NodeTable

open Areas (Declaration survivors)

variable {register : Register} {setting : Difficulty} {ds ds' : List Declaration}

theorem survivors_congr (h : ds'.map (·.pruned setting) = ds.map (·.pruned setting)) :
    survivors setting ds' = survivors setting ds := by
  have hentries := congrArg (List.flatMap Declaration.entries) h
  rw [List.flatMap_map, List.flatMap_map] at hentries
  exact hentries

theorem map_anchor_congr (h : ds'.map (·.pruned setting) = ds.map (·.pruned setting)) :
    ds'.map anchor = ds.map anchor := by
  have hanchors := congrArg (List.map anchor) h
  rw [List.map_map, List.map_map] at hanchors
  exact hanchors

/-- The node table is made of the anchors and of the entries that survive. -/
theorem tableOf_congr (locations : List Location)
    (h : ds'.map (·.pruned setting) = ds.map (·.pruned setting)) :
    tableOf locations setting ds' = tableOf locations setting ds := by
  have hmembers : membersOf locations setting ds' = membersOf locations setting ds := by
    unfold membersOf
    rw [map_anchor_congr h, survivors_congr h]
  have htargets : ∀ place : Areas.Entry → Nat, ds'.map (fun d => (d.survivors setting).map place)
      = ds.map fun d => (d.survivors setting).map place := by
    intro place
    have hentries := congrArg (List.map fun d : Declaration => d.entries.map place) h
    rw [List.map_map, List.map_map] at hentries
    exact hentries
  unfold tableOf
  rw [hmembers, htargets]

/-- Whether declarations can be linked depends on the anchors and on the entries that survive. -/
theorem Linkable.congr (hlink : Linkable register setting ds)
    (h : ds'.map (·.pruned setting) = ds.map (·.pruned setting)) : Linkable register setting ds' := by
  have hnames := congrArg names (map_anchor_congr h)
  rw [names_map_anchor, names_map_anchor] at hnames
  refine ⟨?_, ?_⟩
  · rw [hnames]
    exact hlink.nodup
  · rw [map_anchor_congr h, survivors_congr h]
    exact hlink.consistent

end NodeTable

open Areas (Edit IsIndented bareLines)

/-- **Text that is never looked at has no influence.**  However often an areas text is edited where nothing
is looked at, it can still be read, and the node table is the same. -/
theorem Logic.read_of_edits {areas areas' locations states : String} {setting : Difficulty} {validate : Bool}
    {logic : Logic} (hread : Logic.read areas locations states setting validate = .ok logic)
    (hedits : Relation.ReflTransGen (Edit setting) areas.toList areas'.toList) :
    ∃ logic', Logic.read areas' locations states setting validate = .ok logic' ∧
      logic'.nodes = logic.nodes := by
  obtain ⟨rows, known, hrows, hknown, hgrammar, hlink, hnodes⟩ :=
    Logic.exists_read_iff.mp ⟨logic, hread, rfl⟩
  obtain ⟨hgrammar', hsame⟩ := Areas.keeps_of_edits hedits hgrammar
  apply Logic.exists_read_iff.mpr
  refine ⟨rows, known, hrows, hknown, hgrammar', hlink.congr hsame, ?_⟩
  rw [hnodes, NodeTable.tableOf_congr rows hsame]

/-- A comment line, the body of a region, a flag, an entry that cannot be passed, and a comment behind an
entry are taken out one after the other. -/
theorem Logic.read_of_edits_ladder :
    let areas := "# Marsh\nregion Glades:\n  anything, [at all\nanchor A at 1, 2:\n  nospawn\n  conn B:\n" ++
      "    impossible\n  conn B: free # by the ladder\nanchor B at 3, 4:\n  conn A: free\n"
    let areas' := "region Glades:\n other\nanchor A at 1, 2:\n  conn B: free \n" ++
      "anchor B at 3, 4:\n  conn A: free\n"
    ∃ logic, Logic.read areas "" "" .moki true = .ok logic ∧
      Relation.ReflTransGen (Edit .moki) areas.toList areas'.toList ∧
      ∃ logic', Logic.read areas' "" "" .moki true = .ok logic' ∧ logic'.nodes = logic.nodes := by
  intro areas areas'
  obtain ⟨logic, hread, -⟩ : ∃ logic, Logic.read areas "" "" .moki true = .ok logic ∧
      logic.nodes.map (·.targets) = [[1], [0]] := by
    apply Except.map_eq_ok_iff.mp
    decide +kernel
  have hends := fun piece : Option Char => (Option.all_eq_true isLineEnd piece).mp
  let region := "region Glades:\n".toList
  let other := " other\n".toList
  let header := "anchor A at 1, 2:\n".toList
  let pruned := "  conn B:\n    impossible\n".toList
  let entry := "  conn B: free ".toList
  let rest := "\nanchor B at 3, 4:\n  conn A: free\n".toList
  let behind₄ := entry ++ ('#' :: " by the ladder".toList ++ rest)
  let behind₃ := pruned ++ behind₄
  let behind₂ := header ++ ("  nospawn\n".toList ++ behind₃)
  let behind₁ := region ++ ("  anything, [at all\n".toList ++ behind₂)
  have h₁ : Edit .moki ([] ++ ("# Marsh\n".toList ++ behind₁)) ([] ++ behind₁) :=
    .blank (hends _ rfl) (Or.inl (hends _ rfl)) (by decide +kernel)
  have hregion : bareLines region = [] ++ ⟨0, 0, "region Glades:".toList⟩ :: [] := by decide +kernel
  have hindented : ∀ raw ∈ lines other, IsIndented raw := by
    have hlines : lines other = [" other".toList] := by decide +kernel
    intro raw hraw
    rw [hlines, List.mem_singleton] at hraw
    exact ⟨0, 'o', "ther".toList, hraw, by decide⟩
  have h₂ : Edit .moki (region ++ ("  anything, [at all\n".toList ++ behind₂))
      (region ++ (other ++ behind₂)) :=
    .body (hends _ rfl) (Or.inl (hends _ rfl)) (Or.inl (hends _ rfl)) hregion ⟨rfl, by decide⟩
      (List.forall_mem_nil _) (by decide +kernel) hindented
  let front := region ++ (other ++ header)
  have hfront : bareLines front = [⟨0, 0, "region Glades:".toList⟩, ⟨0, 1, "other".toList⟩] ++
      ⟨0, 0, "anchor A at 1, 2:".toList⟩ :: [] := by
    decide +kernel
  have hflag : bareLines "  nospawn\n".toList = ⟨0, 2, "nospawn".toList⟩ :: [] := by decide +kernel
  have h₃ : Edit .moki (front ++ ("  nospawn\n".toList ++ behind₃)) (front ++ behind₃) :=
    .entry (hends _ rfl) (Or.inl (hends _ rfl)) hfront (by decide) (List.forall_mem_nil _) (by decide) hflag
      (by decide) (List.forall_mem_nil _) (by decide +kernel)
      (Or.inr ⟨⟨0, 2, "conn B:".toList⟩, by decide +kernel⟩) (Or.inl (by decide))
  have hpruned : bareLines pruned = ⟨0, 2, "conn B:".toList⟩ :: [⟨0, 4, "impossible".toList⟩] := by
    decide +kernel
  have h₄ : Edit .moki (front ++ (pruned ++ behind₄)) (front ++ behind₄) :=
    .entry (hends _ rfl) (Or.inl (hends _ rfl)) hfront (by decide) (List.forall_mem_nil _) (by decide) hpruned
      (by decide) (by decide) (by decide +kernel)
      (Or.inr ⟨⟨0, 2, "conn B: free".toList⟩, by decide +kernel⟩)
      (Or.inr ⟨⟨.anchor, "B", 0, ["impossible".toList]⟩, by decide +kernel⟩)
  have h₅ : Edit .moki ((front ++ entry) ++ ('#' :: " by the ladder".toList ++ rest))
      ((front ++ entry) ++ rest) :=
    .comment (fun c hc => (forall_isInline_of_all (by decide) c hc).2) (hends _ rfl)
  have hedits : Relation.ReflTransGen (Edit .moki) areas.toList areas'.toList := by
    have hareas : areas.toList = [] ++ ("# Marsh\n".toList ++ behind₁) := by decide +kernel
    have hareas' : areas'.toList = (front ++ entry) ++ rest := by decide +kernel
    rw [hareas, hareas']
    simp only [front, List.append_assoc] at h₃ h₄ h₅ ⊢
    exact ((((Relation.ReflTransGen.single h₁).tail h₂).tail h₃).tail h₄).tail h₅
  exact ⟨logic, hread, hedits, Logic.read_of_edits hread hedits⟩

end AreaAtlas
