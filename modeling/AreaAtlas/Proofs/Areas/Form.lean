import AreaAtlas.Proofs.Reading
import AreaAtlas.Proofs.Text.Numeral

/-!
# The forms of headers and entries

A header and an entry line are given here as what they are written as: words in a fixed order with white
space between them.  The readers take a line apart from the front, run by run.  That they accept a line
exactly if it has the form is `Header.read?_eq_some_iff` for headers and `Block.readEntry_readsAs` for
entries.
-/

namespace AreaAtlas.Areas

/-! ## Headers -/

/-- A header with this name and these literals of the coordinates. -/
inductive HeaderForm : List Char → List Char → Option (List Char × List Char) → Prop
  | bare {gap name blanks : List Char} :
      IsRun isBlank gap → IsRun isNameChar name → (∀ c ∈ blanks, isBlank c = true) →
      HeaderForm (Header.keyword ++ gap ++ name ++ blanks ++ [':']) name none
  | placed {gap name gap₁ gap₂ x blanks₁ blanks₂ y blanks : List Char} :
      IsRun isBlank gap → IsRun isNameChar name →
      IsRun isBlank gap₁ → IsRun isBlank gap₂ → IsNumeral x →
      (∀ c ∈ blanks₁, isBlank c = true) → (∀ c ∈ blanks₂, isBlank c = true) → IsNumeral y →
      (∀ c ∈ blanks, isBlank c = true) →
      HeaderForm (Header.keyword ++ gap ++ name ++ gap₁ ++ ['a', 't'] ++ gap₂ ++ x ++ blanks₁ ++
        [','] ++ blanks₂ ++ y ++ blanks ++ [':']) name (some (x, y))

/-- The position that two literals give. -/
def positionOf? (literals : List Char × List Char) : Option Position :=
  (Binary64.read? literals.1).bind fun x => (Binary64.read? literals.2).map fun y => ⟨x, y⟩

/-- A header is its keyword, a gap and the name, and then it goes on with something else. -/
theorem HeaderForm.exists_eq_append {text name : List Char} {place : Option (List Char × List Char)}
    (h : HeaderForm text name place) : ∃ gap behind,
      text = Header.keyword ++ (gap ++ (name ++ behind)) ∧ IsRun isBlank gap ∧ IsRun isNameChar name ∧
      StopsAt isNameChar behind ∧ behind ≠ [] := by
  cases h with
  | @bare gap name blanks hgap hname hblanks =>
    refine ⟨gap, blanks ++ [':'], by simp only [List.append_assoc], hgap, hname, ?_, by simp⟩
    exact StopsAt.append (fun c hc => isNameChar_eq_false_of_isBlank (hblanks c hc))
      (stopsAt_cons (by decide))
  | @placed gap name gap₁ gap₂ x blanks₁ blanks₂ y blanks hgap hname hgap₁ =>
    refine ⟨gap, gap₁ ++ (['a', 't'] ++ (gap₂ ++ (x ++ (blanks₁ ++ ([','] ++ (blanks₂ ++ (y ++
      (blanks ++ [':'])))))))), by simp only [List.append_assoc], hgap, hname, ?_, by simp⟩
    exact hgap₁.stopsAt_append fun c hc => isNameChar_eq_false_of_isBlank hc

namespace Header

theorem isEnd_iff {text : List Char} :
    isEnd text = true ↔ ∃ blanks, (∀ c ∈ blanks, isBlank c = true) ∧ text = blanks ++ [':'] := by
  unfold isEnd
  rw [beq_iff_eq]
  constructor
  · intro h
    obtain ⟨blanks, hb, ht⟩ := exists_eq_append_trimStart text
    exact ⟨blanks, hb, h ▸ ht⟩
  · rintro ⟨blanks, hb, rfl⟩
    exact trimStart_append hb (stopsAt_cons (by decide))

theorem takePosition?_sound {text rest : List Char} {position : Position}
    (h : takePosition? text = some (position, rest)) :
    ∃ gap₁ gap₂ x blanks₁ blanks₂ y,
      text = gap₁ ++ ['a', 't'] ++ gap₂ ++ x ++ blanks₁ ++ [','] ++ blanks₂ ++ y ++ rest ∧
      IsRun isBlank gap₁ ∧ IsRun isBlank gap₂ ∧ IsNumeral x ∧ (∀ c ∈ blanks₁, isBlank c = true) ∧
      (∀ c ∈ blanks₂, isBlank c = true) ∧ IsNumeral y ∧ positionOf? (x, y) = some position := by
  simp only [takePosition?, Option.bind_eq_bind, Option.bind_eq_some_iff] at h
  obtain ⟨rest₁, h₁, rest₂, h₂, rest₃, h₃, ⟨x, rest₄⟩, h₄, h⟩ := h
  obtain ⟨gap₁, hgap₁, rfl, -⟩ := skipBlanks?_eq_some_iff.mp h₁
  obtain ⟨gap₂, hgap₂, rfl, -⟩ := skipBlanks?_eq_some_iff.mp h₃
  obtain ⟨lx, hlx, rfl, hx⟩ := takeNumber?_sound h₄
  obtain ⟨blanks₁, hblanks₁, ht₁⟩ := exists_eq_append_trimStart rest₄
  have hat : rest₁ = ['a', 't'] ++ (gap₂ ++ (lx ++ rest₄)) :=
    (List.isPrefixOf?_eq_some_iff_append_eq.mp h₂).symm
  dsimp only at h
  split at h
  · next rest₅ hcomma =>
    obtain ⟨⟨y, rest₆⟩, h₆, hpos⟩ := Option.bind_eq_some_iff.mp h
    obtain ⟨blanks₂, hblanks₂, ht₂⟩ := exists_eq_append_trimStart rest₅
    obtain ⟨ly, hly, ht₃, hy⟩ := takeNumber?_sound h₆
    cases hpos
    refine ⟨gap₁, gap₂, lx, blanks₁, blanks₂, ly, ?_, hgap₁, hgap₂, hlx, hblanks₁, hblanks₂, hly, ?_⟩
    · rw [hat, ht₁, hcomma, ht₂, ht₃]
      simp only [List.append_assoc, List.cons_append, List.nil_append]
    · simp only [positionOf?, hx, hy, Option.bind_some, Option.map_some]
  · cases h

/-- A place is taken off whole if neither a digit nor a point follows it. -/
theorem takePosition?_append {gap₁ gap₂ x blanks₁ blanks₂ y rest : List Char}
    (hgap₁ : IsRun isBlank gap₁) (hgap₂ : IsRun isBlank gap₂) (hx : IsNumeral x)
    (hblanks₁ : ∀ c ∈ blanks₁, isBlank c = true) (hblanks₂ : ∀ c ∈ blanks₂, isBlank c = true)
    (hy : IsNumeral y) (hdigit : StopsAt isDecimalDigit rest) (hpoint : StopsAt (· == '.') rest) :
    takePosition? (gap₁ ++ (['a', 't'] ++ (gap₂ ++ (x ++ (blanks₁ ++ ',' :: (blanks₂ ++ (y ++ rest)))))))
      = (positionOf? (x, y)).map (·, rest) := by
  -- the first literal ends at the comma or at the white space in front of it
  have hcomma : StopsAt isDecimalDigit (blanks₁ ++ ',' :: (blanks₂ ++ (y ++ rest))) ∧
      StopsAt (· == '.') (blanks₁ ++ ',' :: (blanks₂ ++ (y ++ rest))) := by
    constructor
    · exact StopsAt.append (fun c hc => isDecimalDigit_eq_false_of_isBlank (hblanks₁ c hc))
        (stopsAt_cons (by decide))
    · exact StopsAt.append (fun c hc => beq_eq_false_of_isBlank (hblanks₁ c hc) (by decide))
        (stopsAt_cons (by decide))
  have hword : StopsAt isBlank
      (['a', 't'] ++ (gap₂ ++ (x ++ (blanks₁ ++ ',' :: (blanks₂ ++ (y ++ rest)))))) :=
    stopsAt_cons (by decide)
  have hat : ['a', 't'].isPrefixOf?
        (['a', 't'] ++ (gap₂ ++ (x ++ (blanks₁ ++ ',' :: (blanks₂ ++ (y ++ rest))))))
      = some (gap₂ ++ (x ++ (blanks₁ ++ ',' :: (blanks₂ ++ (y ++ rest))))) :=
    List.isPrefixOf?_eq_some_iff_append_eq.mpr rfl
  obtain ⟨vx, hvx⟩ := Option.isSome_iff_exists.mp hx.isSome_read?
  obtain ⟨vy, hvy⟩ := Option.isSome_iff_exists.mp hy.isSome_read?
  have hnx := takeNumber?_append hx hcomma.1 hcomma.2
  have hny := takeNumber?_append hy hdigit hpoint
  rw [hvx, Option.map_some] at hnx
  rw [hvy, Option.map_some] at hny
  unfold takePosition?
  rw [skipBlanks?_append hgap₁ hword]
  simp only [Option.bind_eq_bind, Option.bind_some]
  rw [hat]
  simp only [Option.bind_some]
  rw [skipBlanks?_append hgap₂ hx.stopsAt_append]
  simp only [Option.bind_some]
  rw [hnx]
  simp only [Option.bind_some]
  rw [trimStart_append hblanks₁ (stopsAt_cons (by decide))]
  show (takeNumber? (trimStart (blanks₂ ++ (y ++ rest)))).bind _ = _
  rw [trimStart_append hblanks₂ hy.stopsAt_append, hny]
  simp only [positionOf?, hvx, hvy, Option.bind_some, Option.map_some, Option.pure_def]

/-- Nothing but a place begins with a gap and `at`, so what a bare header ends in is none. -/
theorem takePosition?_end {blanks : List Char} (h : ∀ c ∈ blanks, isBlank c = true) :
    takePosition? (blanks ++ [':']) = none := by
  unfold takePosition?
  cases blanks with
  | nil => rfl
  | cons c blanks =>
    rw [skipBlanks?_append ⟨List.cons_ne_nil c blanks, h⟩ (stopsAt_cons (by decide))]
    rfl

/-- A name is taken whole in front of what ends a header and of what begins a place. -/
theorem stopsAt_name_of_blank {gap rest : List Char} (h : IsRun isBlank gap) :
    StopsAt isNameChar (gap ++ rest) :=
  h.stopsAt_append fun _ hc => isNameChar_eq_false_of_isBlank hc

/-- The name and what follows it are read from behind the keyword. -/
theorem read?_append {gap name rest : List Char} (hgap : IsRun isBlank gap)
    (hname : IsRun isNameChar name) (hrest : StopsAt isNameChar rest) :
    read? (keyword ++ (gap ++ (name ++ rest))) =
      match takePosition? rest with
      | some (position, rest) => if isEnd rest then some ⟨.ofList name, some position⟩ else none
      | none => if isEnd rest then some ⟨.ofList name, none⟩ else none := by
  have hkeyword : keyword.isPrefixOf? (keyword ++ (gap ++ (name ++ rest)))
      = some (gap ++ (name ++ rest)) := List.isPrefixOf?_eq_some_iff_append_eq.mpr rfl
  have hblank : StopsAt isBlank (name ++ rest) :=
    hname.stopsAt_append fun _ hc => isBlank_eq_false_of_isNameChar hc
  have hempty : ¬name.isEmpty = true := fun he => hname.1 (List.isEmpty_iff.mp he)
  unfold read?
  simp only [Option.bind_eq_bind]
  rw [hkeyword, Option.bind_some, skipBlanks?_append hgap hblank, Option.bind_some,
    takeWhile_append_of_stopsAt hname.2 hrest, dropWhile_append_of_stopsAt hname.2 hrest]
  exact if_neg hempty

theorem read?_sound {text : List Char} {header : Header} (h : read? text = some header) :
    ∃ gap name rest, text = keyword ++ (gap ++ (name ++ rest)) ∧ IsRun isBlank gap ∧
      IsRun isNameChar name ∧ header.name = .ofList name ∧
      (match takePosition? rest with
        | some (position, rest) => isEnd rest = true ∧ header.position = some position
        | none => isEnd rest = true ∧ header.position = none) := by
  simp only [read?, Option.bind_eq_bind, Option.bind_eq_some_iff] at h
  obtain ⟨rest₁, h₁, rest₂, h₂, h⟩ := h
  obtain ⟨gap, hgap, rfl, -⟩ := skipBlanks?_eq_some_iff.mp h₂
  by_cases hempty : (rest₂.takeWhile isNameChar).isEmpty
  · rw [if_pos hempty] at h
    cases h
  · rw [if_neg hempty] at h
    refine ⟨gap, rest₂.takeWhile isNameChar, rest₂.dropWhile isNameChar, ?_, hgap, ?_, ?_⟩
    · rw [List.takeWhile_append_dropWhile]
      exact (List.isPrefixOf?_eq_some_iff_append_eq.mp h₁).symm
    · exact isRun_takeWhile fun hnil => hempty (List.isEmpty_iff.mpr hnil)
    · cases hp : takePosition? (rest₂.dropWhile isNameChar) with
      | none =>
        rw [hp] at h
        obtain ⟨hend, he⟩ := Option.ite_none_right_eq_some.mp h
        cases he
        exact ⟨rfl, hend, rfl⟩
      | some p =>
        rw [hp] at h
        obtain ⟨hend, he⟩ := Option.ite_none_right_eq_some.mp h
        cases he
        exact ⟨rfl, hend, rfl⟩

/-- What is read as a header has the form of one. -/
theorem headerForm_of_read? {text : List Char} {header : Header} (h : read? text = some header) :
    ∃ place, HeaderForm text header.name.toList place ∧ header.position = place.bind positionOf? := by
  obtain ⟨gap, name, rest, rfl, hgap, hname, hn, h⟩ := read?_sound h
  rw [hn, String.toList_ofList]
  cases hp : takePosition? rest with
  | none =>
    rw [hp] at h
    obtain ⟨blanks, hblanks, rfl⟩ := isEnd_iff.mp h.1
    refine ⟨none, ?_, h.2⟩
    simpa only [List.append_assoc] using HeaderForm.bare hgap hname hblanks
  | some p =>
    obtain ⟨position, behind⟩ := p
    rw [hp] at h
    obtain ⟨blanks, hblanks, rfl⟩ := isEnd_iff.mp h.1
    obtain ⟨gap₁, gap₂, x, blanks₁, blanks₂, y, rfl, hgap₁, hgap₂, hx, hblanks₁, hblanks₂, hy,
      hxy⟩ := takePosition?_sound hp
    refine ⟨some (x, y), ?_, h.2.trans hxy.symm⟩
    simpa only [List.append_assoc] using
      HeaderForm.placed hgap hname hgap₁ hgap₂ hx hblanks₁ hblanks₂ hy hblanks

/-- What has the form of a header is read as one: the name, and the values of the literals. -/
theorem read?_of_headerForm {text name : List Char} {place : Option (List Char × List Char)}
    (h : HeaderForm text name place) : read? text = some ⟨.ofList name, place.bind positionOf?⟩ := by
  cases h with
  | @bare gap _ blanks hgap hrun hblanks =>
    have hstop : StopsAt isNameChar (blanks ++ [':']) :=
      StopsAt.append (fun c hc => isNameChar_eq_false_of_isBlank (hblanks c hc))
        (stopsAt_cons (by decide))
    have hend : isEnd (blanks ++ [':']) = true := isEnd_iff.mpr ⟨blanks, hblanks, rfl⟩
    simp only [List.append_assoc]
    rw [read?_append hgap hrun hstop, takePosition?_end hblanks]
    simp only [hend, if_true, Option.bind_none]
  | @placed gap _ gap₁ gap₂ x blanks₁ blanks₂ y blanks hgap hrun hgap₁ hgap₂ hx hblanks₁
      hblanks₂ hy hblanks =>
    have hend : isEnd (blanks ++ [':']) = true := isEnd_iff.mpr ⟨blanks, hblanks, rfl⟩
    -- neither digits nor a point follow the second literal, so it is read whole
    have hdigit : StopsAt isDecimalDigit (blanks ++ [':']) :=
      StopsAt.append (fun c hc => isDecimalDigit_eq_false_of_isBlank (hblanks c hc))
        (stopsAt_cons (by decide))
    have hpoint : StopsAt (· == '.') (blanks ++ [':']) :=
      StopsAt.append (fun c hc => beq_eq_false_of_isBlank (hblanks c hc) (by decide))
        (stopsAt_cons (by decide))
    have hplace := takePosition?_append hgap₁ hgap₂ hx hblanks₁ hblanks₂ hy hdigit hpoint
    obtain ⟨vx, hvx⟩ := Option.isSome_iff_exists.mp hx.isSome_read?
    obtain ⟨vy, hvy⟩ := Option.isSome_iff_exists.mp hy.isSome_read?
    have hxy : positionOf? (x, y) = some ⟨vx, vy⟩ := by
      simp only [positionOf?, hvx, hvy, Option.bind_some, Option.map_some]
    rw [hxy, Option.map_some] at hplace
    simp only [List.append_assoc, List.cons_append, List.nil_append] at hplace ⊢
    rw [read?_append hgap hrun (stopsAt_name_of_blank hgap₁), hplace]
    simp only [hend, if_true, Option.bind_some, hxy]

/-- A header is read exactly if it has the form, and it gives the name and the values of the literals. -/
theorem read?_eq_some_iff {text : List Char} {header : Header} :
    read? text = some header ↔
      ∃ place, HeaderForm text header.name.toList place ∧ header.position = place.bind positionOf? := by
  constructor
  · exact headerForm_of_read?
  · rintro ⟨place, hform, hplace⟩
    rw [read?_of_headerForm hform, String.ofList_toList, ← hplace]

end Header

/-! ## Entries -/

theorem ofKeyword?_eq_some_iff {keyword : String} {kind : NodeKind} :
    NodeKind.ofKeyword? keyword = some kind ↔ keyword = kind.keyword := by
  constructor
  · intro h
    have := List.find?_some h
    exact (beq_iff_eq.mp this).symm
  · rintro rfl
    exact NodeKind.ofKeyword?_keyword kind

theorem ofKeyword?_toList (kind : NodeKind) :
    NodeKind.ofKeyword? (.ofList kind.keyword.toList) = some kind := by
  rw [String.ofList_toList]
  exact NodeKind.ofKeyword?_keyword kind

/-- An entry line with the deeper lines behind it.  A flag is a word and anything behind it.  Another
entry is a keyword, a name and a colon, and either a text follows the colon or there are deeper lines. -/
inductive EntryForm : List Char → List Line → Prop
  | flag {word rest : List Char} {behind : List Line} :
      IsRun isWord word → StopsAt isWord rest → String.ofList word ∈ flags →
      EntryForm (word ++ rest) behind
  | leading {kind : NodeKind} {gap name blanks rest : List Char} {behind : List Line} :
      IsRun isBlank gap → IsRun isNameChar name → (∀ c ∈ blanks, isBlank c = true) →
      ((∀ c ∈ rest, isBlank c = true) ↔ behind ≠ []) →
      EntryForm (kind.keyword.toList ++ gap ++ name ++ blanks ++ [':'] ++ rest) behind

/-- The entry on a line with these deeper lines behind it; a flag gives none. -/
def Line.entryAbove? (line : Line) (behind : List Line) : Option Entry := do
  let text ← EntryText.read? line.text
  let kind ← NodeKind.ofKeyword? (.ofList text.keyword)
  let target ← text.target
  return ⟨kind, .ofList target, line.number,
    if text.requirements = [] then blockAlternatives behind else [text.requirements]⟩

theorem isRun_keyword (kind : NodeKind) : IsRun isWord kind.keyword.toList := by
  cases kind <;> decide

theorem keyword_not_mem_flags (kind : NodeKind) : kind.keyword ∉ flags := by
  cases kind <;> decide

namespace EntryText

theorem takeTarget_append {gap name rest : List Char} (hgap : IsRun isBlank gap)
    (hname : IsRun isNameChar name) (hrest : StopsAt isNameChar rest) :
    takeTarget (gap ++ (name ++ rest)) = (some name, rest) := by
  have hblank : StopsAt isBlank (name ++ rest) :=
    hname.stopsAt_append fun _ hc => isBlank_eq_false_of_isNameChar hc
  unfold takeTarget
  rw [skipBlanks?_append hgap hblank]
  dsimp only
  rw [takeWhile_append_of_stopsAt hname.2 hrest, dropWhile_append_of_stopsAt hname.2 hrest]
  split
  · exact absurd rfl hname.1
  · rfl

theorem takeTarget_sound {text name rest : List Char} (h : takeTarget text = (some name, rest)) :
    ∃ gap, IsRun isBlank gap ∧ IsRun isNameChar name ∧ text = gap ++ (name ++ rest) := by
  unfold takeTarget at h
  split at h
  · cases h
  · next behind hskip =>
    obtain ⟨gap, hgap, rfl, -⟩ := skipBlanks?_eq_some_iff.mp hskip
    split at h
    · cases h
    · next hne =>
      cases h
      exact ⟨gap, hgap, isRun_takeWhile hne, by rw [List.takeWhile_append_dropWhile]⟩

/-- A line is taken apart if it begins with a word, which is taken whole. -/
theorem read?_append {word rest : List Char} (hword : IsRun isWord word)
    (hrest : StopsAt isWord rest) :
    read? (word ++ rest) =
      match trimStart (takeTarget rest).2 with
      | ':' :: behind => some ⟨word, (takeTarget rest).1, true, trimStart behind⟩
      | behind => some ⟨word, (takeTarget rest).1, false, behind⟩ := by
  unfold read?
  rw [takeWhile_append_of_stopsAt hword.2 hrest, dropWhile_append_of_stopsAt hword.2 hrest]
  split
  · exact absurd rfl hword.1
  · rfl

theorem read?_sound {text : List Char} {t : EntryText} (h : read? text = some t) :
    IsRun isWord t.keyword ∧ ∃ rest, text = t.keyword ++ rest ∧ StopsAt isWord rest ∧
      (takeTarget rest).1 = t.target ∧
      (t.colon = true → ∃ blanks behind, (∀ c ∈ blanks, isBlank c = true) ∧
        (takeTarget rest).2 = blanks ++ ':' :: behind ∧ t.requirements = trimStart behind) := by
  have hsplit := List.takeWhile_append_dropWhile (p := isWord) (l := text)
  have hne : text.takeWhile isWord ≠ [] := by
    intro hnil
    unfold read? at h
    rw [hnil] at h
    cases h
  have hrun := isRun_takeWhile hne
  rw [← hsplit, read?_append hrun stopsAt_dropWhile] at h
  split at h
  · next behind htrim =>
    cases h
    obtain ⟨blanks, hblanks, hb⟩ :=
      exists_eq_append_trimStart (takeTarget (text.dropWhile isWord)).2
    rw [htrim] at hb
    exact ⟨hrun, _, hsplit.symm, stopsAt_dropWhile, rfl, fun _ => ⟨blanks, behind, hblanks, hb, rfl⟩⟩
  · cases h
    exact ⟨hrun, _, hsplit.symm, stopsAt_dropWhile, rfl, fun hc => absurd hc Bool.false_ne_true⟩

theorem takeWhile_of_read? {text : List Char} {t : EntryText} (h : read? text = some t) :
    text.takeWhile isWord = t.keyword := by
  obtain ⟨hrun, rest, rfl, hstops, -⟩ := read?_sound h
  exact takeWhile_append_of_stopsAt hrun.2 hstops

theorem read?_leading {word gap name blanks rest : List Char} (hword : IsRun isWord word)
    (hgap : IsRun isBlank gap) (hname : IsRun isNameChar name)
    (hblanks : ∀ c ∈ blanks, isBlank c = true) :
    read? (word ++ gap ++ name ++ blanks ++ [':'] ++ rest)
      = some ⟨word, some name, true, trimStart rest⟩ := by
  have hstop : StopsAt isWord (gap ++ (name ++ (blanks ++ (':' :: rest)))) := by
    refine hgap.stopsAt_append ?_
    intro c hc
    have := isNameChar_eq_false_of_isBlank hc
    exact (Bool.or_eq_false_iff.mp this).1
  have hend : StopsAt isNameChar (blanks ++ ':' :: rest) :=
    StopsAt.append (fun c hc => isNameChar_eq_false_of_isBlank (hblanks c hc))
      (stopsAt_cons (by decide))
  simp only [List.append_assoc, List.cons_append, List.nil_append]
  rw [read?_append hword hstop, takeTarget_append hgap hname hend]
  dsimp only
  rw [trimStart_append hblanks (stopsAt_cons (by decide))]
  rfl

end EntryText

theorem readAlternatives_eq_ok_iff {line : Nat} {keyword target : String} {inline : List Char}
    {inner : List Line} {alternatives : List (List Char)} :
    readAlternatives line keyword target inline inner = .ok alternatives ↔
      (inline = [] ↔ inner ≠ []) ∧
        alternatives = if inline = [] then blockAlternatives inner else [inline] := by
  unfold readAlternatives
  cases inline with
  | nil =>
    cases inner with
    | nil => simp
    | cons first rest => simp [eq_comm]
  | cons c inline =>
    cases inner with
    | nil => simp [eq_comm]
    | cons first rest => simp

/-- The form in terms of the line taken apart. -/
theorem entryForm_iff {text : List Char} {behind : List Line} :
    EntryForm text behind ↔ ∃ t, EntryText.read? text = some t ∧
      (String.ofList t.keyword ∈ flags ∨ ∃ kind target,
        NodeKind.ofKeyword? (.ofList t.keyword) = some kind ∧ t.target = some target ∧
          t.colon = true ∧ (t.requirements = [] ↔ behind ≠ [])) := by
  constructor
  · rintro (⟨hword, hrest, hflag⟩ | @⟨kind, gap, name, blanks, rest, _, hgap, hname, hblanks, hrest⟩)
    · rw [EntryText.read?_append hword hrest]
      split
      · exact ⟨_, rfl, Or.inl hflag⟩
      · exact ⟨_, rfl, Or.inl hflag⟩
    · refine ⟨_, EntryText.read?_leading (isRun_keyword kind) hgap hname hblanks, Or.inr ?_⟩
      exact ⟨kind, name, ofKeyword?_toList kind, rfl, rfl, trimStart_eq_nil_iff.trans hrest⟩
  · rintro ⟨t, ht, h⟩
    obtain ⟨hword, rest, rfl, hrest, htarget, hcolon⟩ := EntryText.read?_sound ht
    rcases h with hflag | ⟨kind, target, hkind, hname, hc, hreq⟩
    · exact EntryForm.flag hword hrest hflag
    · obtain ⟨blanks, tail, hblanks, hbehind, htail⟩ := hcolon hc
      have hpair : EntryText.takeTarget rest = (some target, blanks ++ ':' :: tail) :=
        Prod.ext (htarget.trans hname) hbehind
      obtain ⟨gap, hgap, hrun, rfl⟩ := EntryText.takeTarget_sound hpair
      -- the word is the keyword of the kind that it was read as
      have hkeyword : t.keyword = kind.keyword.toList := by
        rw [← ofKeyword?_eq_some_iff.mp hkind, String.toList_ofList]
      rw [htail, trimStart_eq_nil_iff] at hreq
      rw [hkeyword]
      simpa only [List.append_assoc, List.cons_append, List.nil_append] using
        EntryForm.leading hgap hrun hblanks hreq

/-- The entry on a line of the form: its kind and target, and the text behind the colon as the only
alternative, or else the lines below. -/
theorem Line.entryAbove?_leading {line : Line} {kind : NodeKind} {gap name blanks rest : List Char}
    (htext : line.text = kind.keyword.toList ++ gap ++ name ++ blanks ++ [':'] ++ rest)
    (hgap : IsRun isBlank gap) (hname : IsRun isNameChar name)
    (hblanks : ∀ c ∈ blanks, isBlank c = true) (behind : List Line) :
    line.entryAbove? behind = some ⟨kind, .ofList name, line.number,
      if trimStart rest = [] then blockAlternatives behind else [trimStart rest]⟩ := by
  unfold Line.entryAbove?
  rw [htext, EntryText.read?_leading (isRun_keyword kind) hgap hname hblanks]
  simp only [ofKeyword?_toList, Option.bind_eq_bind, Option.bind_some, pure]

/-- A flag gives no entry. -/
theorem Line.entryAbove?_flag {line : Line} {t : EntryText} (ht : EntryText.read? line.text = some t)
    (hflag : String.ofList t.keyword ∈ flags) (behind : List Line) :
    line.entryAbove? behind = none := by
  have hkind : NodeKind.ofKeyword? (.ofList t.keyword) = none := by
    cases hk : NodeKind.ofKeyword? (.ofList t.keyword) with
    | none => rfl
    | some kind =>
      rw [ofKeyword?_eq_some_iff.mp hk] at hflag
      exact absurd hflag (keyword_not_mem_flags kind)
  unfold Line.entryAbove?
  simp only [ht, hkind, Option.bind_eq_bind, Option.bind_some, Option.bind_none]

/-- A line that gives an entry is its keyword, a gap and its target, and then goes on with something
else. -/
theorem EntryForm.exists_eq_append {line : Line} {behind : List Line} {e : Entry}
    (h : EntryForm line.text behind) (he : line.entryAbove? behind = some e) : ∃ gap after,
      line.text = e.kind.keyword.toList ++ (gap ++ (e.target.toList ++ after)) ∧ IsRun isBlank gap ∧
      IsRun isNameChar e.target.toList ∧ StopsAt isNameChar after ∧ after ≠ [] := by
  generalize htext : line.text = text at h
  cases h with
  | @flag word rest _ hword hrest hflag =>
    have hread := EntryText.read?_append hword hrest
    rw [← htext] at hread
    have hnone : line.entryAbove? behind = none := by
      split at hread
      · exact Line.entryAbove?_flag hread hflag behind
      · exact Line.entryAbove?_flag hread hflag behind
    rw [hnone] at he
    cases he
  | @leading kind gap name blanks rest _ hgap hname hblanks hrest =>
    rw [Line.entryAbove?_leading htext hgap hname hblanks] at he
    obtain rfl := Option.some.inj he
    rw [String.toList_ofList]
    refine ⟨gap, blanks ++ ':' :: rest, ?_, hgap, hname, ?_, by simp⟩
    · simp only [List.append_assoc, List.cons_append, List.nil_append]
    · exact StopsAt.append (fun c hc => isNameChar_eq_false_of_isBlank (hblanks c hc))
        (stopsAt_cons (by decide))

/-- The block of an entry is read exactly if its first line has the form of one. -/
theorem Block.readEntry_readsAs :
    ReadsAs Block.readEntry (fun b => EntryForm b.head.text b.inner)
      (fun b => b.head.entryAbove? b.inner) := by
  rintro ⟨⟨number, indent, text⟩, inner⟩ o
  dsimp only
  rw [entryForm_iff]
  unfold Block.readEntry
  dsimp only
  cases ht : EntryText.read? text with
  | none => simp [throw, throwThe, MonadExceptOf.throw]
  | some t =>
    simp only [Option.some.injEq, exists_eq_left']
    by_cases hf : String.ofList t.keyword ∈ flags
    · have hentry : Line.entryAbove? ⟨number, indent, text⟩ inner = none :=
        Line.entryAbove?_flag ht hf inner
      simp only [hf, hentry, if_true, true_or, true_and, pure, Except.pure, Except.ok.injEq]
      exact eq_comm
    · simp only [hf, if_false, false_or]
      cases hk : NodeKind.ofKeyword? (.ofList t.keyword) with
      | none => simp [throw, throwThe, MonadExceptOf.throw]
      | some kind =>
        cases hn : t.target with
        | none => simp [throw, throwThe, MonadExceptOf.throw]
        | some target =>
          cases hc : t.colon with
          | false => simp [throw, throwThe, MonadExceptOf.throw, bind, Except.bind]
          | true =>
            have hentry : Line.entryAbove? ⟨number, indent, text⟩ inner = some ⟨kind, .ofList target,
                number, if t.requirements = [] then blockAlternatives inner else [t.requirements]⟩ := by
              simp [Line.entryAbove?, ht, hk, hn]
            simp only [Bool.not_true, Bool.false_eq_true, if_false, bind_pure_comp, hentry]
            show (readAlternatives number _ _ t.requirements inner).map
              (fun a => some (Entry.mk kind (.ofList target) number a)) = .ok o ↔ _
            simp only [Except.map_eq_ok_iff, readAlternatives_eq_ok_iff, Option.some.injEq, true_and]
            constructor
            · rintro ⟨alternatives, ⟨hiff, rfl⟩, rfl⟩
              exact ⟨⟨kind, target, rfl, rfl, hiff⟩, rfl⟩
            · rintro ⟨⟨kind', target', -, -, hiff⟩, rfl⟩
              exact ⟨_, ⟨hiff, rfl⟩, rfl⟩

end AreaAtlas.Areas
