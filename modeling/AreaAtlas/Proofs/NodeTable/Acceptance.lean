import AreaAtlas.Proofs.NodeTable.Linking

/-!
# Which documents are read

Whether documents are read can be told from the logical lines of the areas text and the rows of the
location table: the lines have to keep to the grammar, and the names in them have to fit together.
`Names` lists what the latter takes.  Neither condition follows the order in which the text is read.
-/

namespace AreaAtlas

/-- A line declares an anchor of this name. -/
def Areas.Line.Declares (line : Areas.Line) (name : String) : Prop :=
  ∃ place, Areas.HeaderForm line.text name.toList place

namespace NodeTable

open Areas (Line Declaration)

/-- **The names in an areas text fit together** at a difficulty: they can be told apart, and what
surviving entries lead to is there and is of the kind that they say. -/
structure Names (lines : List Line) (locations : List Location) (setting : Difficulty) : Prop where
  /-- No name is declared by two lines. -/
  distinct : (Areas.anchorLines lines).Pairwise
    fun p q => ∀ name, p.1.Declares name → ¬q.1.Declares name
  /-- A connection leads to a declared anchor. -/
  anchors : ∀ e ∈ Areas.survivorsIn setting lines, e.kind = .anchor →
    ∃ p ∈ Areas.anchorLines lines, p.1.Declares e.target
  /-- Leaves are not declared. -/
  leaves : ∀ e ∈ Areas.survivorsIn setting lines, e.kind ≠ .anchor →
    ¬∃ p ∈ Areas.anchorLines lines, p.1.Declares e.target
  /-- Pickups and quests have a row in the location table. -/
  rows : ∀ e ∈ Areas.survivorsIn setting lines, e.kind = .pickup ∨ e.kind = .quest →
    ∃ row ∈ locations, row.identifier = e.target
  /-- A name is used for one kind. -/
  agree : ∀ e ∈ Areas.survivorsIn setting lines, ∀ e' ∈ Areas.survivorsIn setting lines,
    e.target = e'.target → e.kind = e'.kind

/-! ## Declared names -/

/-- A line that is read as a header declares the name that is read, and no other. -/
theorem declares_iff {line : Line} {name name' : String} (h : line.Declares name) :
    line.Declares name' ↔ name' = name := by
  obtain ⟨place, hform⟩ := h
  have hread := Areas.Header.read?_of_headerForm hform
  constructor
  · rintro ⟨place', hform'⟩
    rw [Areas.Header.read?_of_headerForm hform'] at hread
    have hname := congrArg Areas.Header.name (Option.some.inj hread)
    simpa only [String.ofList_toList] using hname
  · rintro rfl
    exact ⟨place, hform⟩

section Declared

variable {anchors : List (Line × List Line)} {ds : List Declaration}

theorem exists_declares_iff (h : List.Forall₂ (fun p d => p.1.Declares d.name) anchors ds)
    {name : String} : (∃ p ∈ anchors, p.1.Declares name) ↔ name ∈ ds.map (·.name) := by
  induction h with
  | nil => simp
  | cons hp _ ih =>
    rw [List.map_cons, List.mem_cons, ← ih, ← declares_iff hp]
    simp only [List.mem_cons, exists_eq_or_imp]

theorem pairwise_declares_iff (h : List.Forall₂ (fun p d => p.1.Declares d.name) anchors ds) :
    (anchors.Pairwise fun p q => ∀ name, p.1.Declares name → ¬q.1.Declares name) ↔
      (ds.map (·.name)).Nodup := by
  induction h with
  | nil => simp
  | @cons p d anchors ds hp hrest ih =>
    -- the first line declares one name only, so its row of pairs asks about that name alone
    have hfirst : (∀ q ∈ anchors, ∀ name, p.1.Declares name → ¬q.1.Declares name) ↔
        d.name ∉ ds.map (·.name) := by
      rw [← exists_declares_iff hrest]
      constructor
      · rintro hq ⟨q, hmem, hname⟩
        exact hq q hmem d.name hp hname
      · intro hnone q hmem name hname
        rw [(declares_iff hp).mp hname]
        exact fun hq => hnone ⟨q, hmem, hq⟩
    rw [List.pairwise_cons, List.map_cons, List.nodup_cons, hfirst, ih]

end Declared

/-! ## Names that fit together -/

/-- The names fit together exactly if the declarations have a node table. -/
theorem linkable_iff_names {lines : List Line} (hgrammar : Areas.Grammar lines)
    {locations : List Location} {setting : Difficulty} :
    Linkable ⟨locations, none⟩ setting (Areas.declarationsIn lines) ↔
      Names lines locations setting := by
  have hlines := Areas.forall₂_declarationsIn hgrammar
  have hdeclares : List.Forall₂ (fun p d => p.1.Declares d.name) (Areas.anchorLines lines)
      (Areas.declarationsIn lines) := by
    refine hlines.imp ?_
    rintro p d ⟨⟨place, hform, -⟩, -⟩
    exact ⟨place, hform⟩
  have hmem : ∀ {name}, (∃ p ∈ Areas.anchorLines lines, p.1.Declares name) ↔
      name ∈ (Areas.declarationsIn lines).map (·.name) := exists_declares_iff hdeclares
  have hsurvivors := Areas.survivorsIn_eq hgrammar setting
  constructor
  · intro h
    refine
      { distinct := (pairwise_declares_iff hdeclares).mpr h.nodup
        anchors := ?anchors
        leaves := ?leaves
        rows := ?rows
        agree := ?agree }
    case anchors =>
      intro e he hkind
      rw [hsurvivors] at he
      exact hmem.mpr ((h.target_mem_iff he).mpr hkind)
    case leaves =>
      intro e he hkind hdeclared
      rw [hsurvivors] at he
      exact hkind ((h.target_mem_iff he).mp (hmem.mp hdeclared))
    case rows =>
      intro e he hkind
      rw [hsurvivors] at he
      have hnew : e.target ∉ names ((Areas.declarationsIn lines).map anchor) := by
        rw [names_map_anchor, h.target_mem_iff he]
        exact ne_anchor_of_placed hkind
      have hadd := h.consistent.fresh e he hnew
      unfold CanAdd at hadd
      rcases hkind with hkind | hkind
      · rwa [hkind] at hadd
      · rwa [hkind] at hadd
    case agree =>
      intro e he e' he'
      rw [hsurvivors] at he he'
      exact h.consistent.agree e he e' he'
  · intro h
    refine ⟨(pairwise_declares_iff hdeclares).mp h.distinct, ?known, ?fresh, ?agree⟩
    case known =>
      rintro e he m hm hname
      rw [← hsurvivors] at he
      obtain ⟨d, hd, rfl⟩ := List.mem_map.mp hm
      have hdeclared : e.target ∈ (Areas.declarationsIn lines).map (·.name) :=
        List.mem_map.mpr ⟨d, hd, hname⟩
      by_contra hkind
      exact h.leaves e he (Ne.symm hkind) (hmem.mpr hdeclared)
    case fresh =>
      intro e he hnew
      rw [← hsurvivors] at he
      rw [names_map_anchor, ← hmem] at hnew
      unfold CanAdd
      cases hkind : e.kind with
      | anchor => exact absurd (h.anchors e he hkind) hnew
      | state =>
        -- without validation no state is looked up
        exact fun _ hnone => by cases hnone
      | pickup => exact h.rows e he (Or.inl hkind)
      | quest => exact h.rows e he (Or.inr hkind)
    case agree =>
      intro e he e' he'
      rw [← hsurvivors] at he he'
      exact h.agree e he e' he'

end NodeTable

/-- **Documents are read exactly if the areas text keeps to its grammar and the names in it fit
together**, given tables that are read. -/
theorem Logic.exists_read_eq_ok_iff {areas locations states : String} {setting : Difficulty}
    {rows : List Location} {known : List String} (hrows : readLocations locations.toList = .ok rows)
    (hknown : readStates states.toList = .ok known) :
    (∃ logic, Logic.read areas locations states setting false = .ok logic) ↔
      Areas.Grammar (Areas.logicalLines areas.toList) ∧
        NodeTable.Names (Areas.logicalLines areas.toList) rows setting := by
  constructor
  · rintro ⟨logic, h⟩
    obtain ⟨hlocations, -, hgrammar, hds, hlink, -⟩ := Logic.read_eq_ok_iff.mp h
    rw [hrows] at hlocations
    rw [← Except.ok.inj hlocations, hds] at hlink
    exact ⟨hgrammar, (NodeTable.linkable_iff_names hgrammar).mp hlink⟩
  · rintro ⟨hgrammar, hnames⟩
    obtain ⟨ds, hds⟩ : ∃ ds, ds = Areas.declarationsIn (Areas.logicalLines areas.toList) := ⟨_, rfl⟩
    obtain ⟨nodes, hnodes⟩ : ∃ nodes, nodes = NodeTable.tableOf rows setting ds := ⟨_, rfl⟩
    refine ⟨⟨ds, rows, known, nodes⟩, ?_⟩
    apply Logic.read_eq_ok_iff.mpr
    refine ⟨hrows, hknown, hgrammar, hds, ?_, hnodes⟩
    show NodeTable.Linkable ⟨rows, none⟩ setting ds
    rw [hds]
    exact (NodeTable.linkable_iff_names hgrammar).mpr hnames

/-- Two anchors that lead to each other, and a pickup that one of them leads to. -/
def Areas.thereAndBack : String :=
  "anchor A:\n  conn B: free\nanchor B:\n  pickup Gem:\n    free\n  conn A: free\n"

theorem Logic.exists_read_eq_ok_iff_thereAndBack :
    ∃ rows, readLocations "Gem,Zone,,,3,4\n".toList = .ok rows ∧
      Areas.Grammar (Areas.logicalLines Areas.thereAndBack.toList) ∧
      NodeTable.Names (Areas.logicalLines Areas.thereAndBack.toList) rows .moki := by
  have hread : ((Logic.read Areas.thereAndBack "Gem,Zone,,,3,4\n" "" .moki false).map
      fun _ => ()) = .ok () := by
    decide +kernel
  have hlocations : ((readLocations "Gem,Zone,,,3,4\n".toList).map fun _ => ()) = .ok () := by
    decide +kernel
  have hknown : readStates "".toList = .ok [] := by decide +kernel
  obtain ⟨logic, hlogic, -⟩ := Except.map_eq_ok_iff.mp hread
  obtain ⟨rows, hrows, -⟩ := Except.map_eq_ok_iff.mp hlocations
  exact ⟨rows, hrows, (Logic.exists_read_eq_ok_iff hrows hknown).mp ⟨logic, hlogic⟩⟩

end AreaAtlas
