import AreaAtlas.Proofs.Areas.Sections
import AreaAtlas.Proofs.NodeTable.Exactness
import Mathlib.Data.List.Perm.Basic

/-!
# Declarations in another order

The order of declarations decides in which order nodes stand in the table, and nothing else: whether they
can be linked is said of each declaration and of each two, and what the members are is said without their
places.  The lines that declarations stand on are not looked at at all, so the node table of a text can be
told from its bare lines, `Logic.exists_read_iff`.
-/

namespace AreaAtlas

/-! ## Declarations on other lines -/

namespace Areas.Relabeling

open NodeTable

variable (r : Relabeling) {register : Register} {setting : Difficulty} {ds : List Declaration}

theorem survivors_declaration (d : Declaration) :
    (r.declaration d).survivors setting = (d.survivors setting).map r.entry := by
  unfold Declaration.survivors
  show (d.entries.map r.entry).filter (·.isPermitted setting) = _
  rw [List.filter_map]
  rfl

theorem survivors_map : survivors setting (ds.map r.declaration)
    = (survivors setting ds).map r.entry := by
  unfold survivors
  rw [List.flatMap_map, List.map_flatMap]
  refine List.flatMap_congr ?_
  intro d _
  exact r.survivors_declaration d

theorem firstReferences_map (known : List String) (es : List Entry) :
    firstReferences known (es.map r.entry) = (firstReferences known es).map r.entry := by
  induction es generalizing known with
  | nil => rfl
  | cons e rest ih =>
    rw [List.map_cons, firstReferences, firstReferences]
    show (if e.target ∈ known then _ else r.entry e :: firstReferences (known ++ [e.target]) _) = _
    split
    · exact ih known
    · exact congrArg (r.entry e :: ·) (ih _)

theorem map_anchor_map : (ds.map r.declaration).map anchor = ds.map anchor := by
  rw [List.map_map]
  rfl

theorem membersOf_map (locations : List Location) :
    membersOf locations setting (ds.map r.declaration) = membersOf locations setting ds := by
  unfold membersOf extendAll
  rw [r.map_anchor_map, r.survivors_map, r.firstReferences_map, List.map_map]
  rfl

/-- The node table of declarations on other lines is the same. -/
theorem tableOf_map (locations : List Location) :
    tableOf locations setting (ds.map r.declaration) = tableOf locations setting ds := by
  unfold tableOf
  rw [r.membersOf_map, List.map_map]
  refine congrArg _ (List.map_congr_left ?_)
  intro d _
  rw [Function.comp_apply, r.survivors_declaration, List.map_map]
  rfl

theorem consistent_map_iff {members : List Member} {es : List Entry} :
    Consistent register members (es.map r.entry) ↔ Consistent register members es := by
  constructor
  · rintro ⟨hknown, hfresh, hagree⟩
    simp only [List.forall_mem_map] at hknown hfresh hagree
    exact ⟨hknown, hfresh, hagree⟩
  · rintro ⟨hknown, hfresh, hagree⟩
    refine ⟨List.forall_mem_map.mpr hknown, List.forall_mem_map.mpr hfresh, ?_⟩
    simp only [List.forall_mem_map]
    exact hagree

/-- Declarations can be linked whatever lines they stand on. -/
theorem linkable_map_iff :
    Linkable register setting (ds.map r.declaration) ↔ Linkable register setting ds := by
  have hnames : (ds.map r.declaration).map (·.name) = ds.map (·.name) := by
    rw [List.map_map]
    rfl
  have hentries : Consistent register ((ds.map r.declaration).map anchor)
        (survivors setting (ds.map r.declaration)) ↔
      Consistent register (ds.map anchor) (survivors setting ds) := by
    rw [r.map_anchor_map, r.survivors_map, r.consistent_map_iff]
  constructor
  · rintro ⟨hnodup, hlink⟩
    exact ⟨hnames ▸ hnodup, hentries.mp hlink⟩
  · rintro ⟨hnodup, hlink⟩
    exact ⟨hnames.symm ▸ hnodup, hentries.mpr hlink⟩

end Areas.Relabeling

/-! ## Declarations in another order -/

namespace NodeTable

open Areas (Declaration Entry survivors)

section Order

variable {register : Register} {setting : Difficulty} {ds ds' : List Declaration}

theorem survivors_perm (h : ds.Perm ds') : (survivors setting ds).Perm (survivors setting ds') :=
  h.flatMap_right _

/-- What can be linked can be linked in every order. -/
theorem Linkable.perm (hlink : Linkable register setting ds) (h : ds.Perm ds') :
    Linkable register setting ds' := by
  have hmem : ∀ e, e ∈ survivors setting ds' → e ∈ survivors setting ds :=
    fun e => (survivors_perm h).mem_iff.mpr
  have hanchors : ∀ m, m ∈ ds'.map anchor → m ∈ ds.map anchor := fun m => (h.map anchor).mem_iff.mpr
  obtain ⟨hnodup, hknown, hfresh, hagree⟩ := hlink
  refine ⟨(h.map _).nodup hnodup, ?known, ?fresh, ?agree⟩
  case known => exact fun e he m hm => hknown e (hmem e he) m (hanchors m hm)
  case fresh =>
    intro e he hnew
    refine hfresh e (hmem e he) fun hname => hnew ?_
    exact ((h.map anchor).map _).mem_iff.mp hname
  case agree => exact fun e he e' he' => hagree e (hmem e he) e' (hmem e' he')

/-- The members are the same in every order, but for their order. -/
theorem membersOf_perm (hlink : Linkable register setting ds) (h : ds.Perm ds') :
    (membersOf register.locations setting ds).Perm (membersOf register.locations setting ds') := by
  have hlink' := hlink.perm h
  have hnodup := (distinct_membersOf hlink).of_map
  have hnodup' := (distinct_membersOf hlink').of_map
  refine (List.perm_ext_iff_of_nodup hnodup hnodup').mpr ?_
  intro m
  rw [mem_membersOf_iff hlink, mem_membersOf_iff hlink']
  simp only [h.mem_iff, (survivors_perm h).mem_iff]

end Order

end NodeTable

/-! ## Texts -/

open Areas (bareLines)

/-- **Reading documents in closed form**, without a look at the numbers of lines. -/
theorem Logic.exists_read_iff {areas locations states : String} {setting : Difficulty} {validate : Bool}
    {nodes : List Node} :
    (∃ logic, Logic.read areas locations states setting validate = .ok logic ∧ logic.nodes = nodes) ↔
      ∃ rows known, readLocations locations.toList = .ok rows ∧ readStates states.toList = .ok known ∧
        Areas.Grammar (bareLines areas.toList) ∧
        NodeTable.Linkable ⟨rows, if validate then some known else none⟩ setting
          (Areas.declarationsIn (bareLines areas.toList)) ∧
        nodes = NodeTable.tableOf rows setting (Areas.declarationsIn (bareLines areas.toList)) := by
  have hgrammar : Areas.Grammar ((Areas.logicalLines areas.toList).map Areas.Relabeling.bare.line) ↔
      Areas.Grammar (Areas.logicalLines areas.toList) := Areas.Relabeling.bare.grammar_map_iff
  unfold bareLines
  rw [hgrammar]
  constructor
  · rintro ⟨logic, hlogic, rfl⟩
    obtain ⟨hrows, hknown, hlines, hds, hlink, hnodes⟩ := Logic.read_eq_ok_iff.mp hlogic
    rw [hds] at hlink hnodes
    refine ⟨logic.locations, logic.states, hrows, hknown, hlines, ?_, ?_⟩
    · rw [Areas.Relabeling.bare.declarationsIn_map hlines, Areas.Relabeling.bare.linkable_map_iff]
      exact hlink
    · rw [Areas.Relabeling.bare.declarationsIn_map hlines, Areas.Relabeling.bare.tableOf_map, hnodes]
  · rintro ⟨rows, known, hrows, hknown, hlines, hlink, rfl⟩
    rw [Areas.Relabeling.bare.declarationsIn_map hlines] at hlink ⊢
    rw [Areas.Relabeling.bare.linkable_map_iff] at hlink
    rw [Areas.Relabeling.bare.tableOf_map]
    obtain ⟨ds, hds⟩ : ∃ ds, ds = Areas.declarationsIn (Areas.logicalLines areas.toList) := ⟨_, rfl⟩
    rw [← hds] at hlink ⊢
    obtain ⟨nodes, hnodes⟩ : ∃ nodes, nodes = NodeTable.tableOf rows setting ds := ⟨_, rfl⟩
    have hlogic : Logic.read areas locations states setting validate = .ok ⟨ds, rows, known, nodes⟩ :=
      Logic.read_eq_ok_iff.mpr ⟨hrows, hknown, hlines, hds, hlink, hnodes⟩
    exact ⟨_, hlogic, hnodes⟩

end AreaAtlas
