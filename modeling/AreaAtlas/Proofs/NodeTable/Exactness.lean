import AreaAtlas.Graph.Build
import AreaAtlas.Proofs.Location
import AreaAtlas.Proofs.NodeTable.Linking
import Mathlib.Data.List.Forall2

/-!
# What a node table holds

`IsExact` says of a node table, line by line of the areas text, what is in it: an anchor for every header,
a leaf for every name that a surviving entry leads to, and the way each surviving entry leads.
`Logic.read_isExact` is the main statement: every node table that is read is of this kind.
-/

namespace AreaAtlas

theorem forall₂_comp {α β γ : Type} {r : α → β → Prop} {s : β → γ → Prop} {t : α → γ → Prop}
    (h : ∀ a b c, r a b → s b c → t a c) {as : List α} {bs : List β} {cs : List γ}
    (hr : List.Forall₂ r as bs) (hs : List.Forall₂ s bs cs) : List.Forall₂ t as cs := by
  induction hr generalizing cs with
  | nil =>
    cases hs
    exact List.Forall₂.nil
  | cons hab _ ih =>
    cases hs with
    | cons hbc hs => exact List.Forall₂.cons (h _ _ _ hab hbc) (ih hs)

/-- What a node is apart from its index and its targets. -/
def Node.toMember (n : Node) : NodeTable.Member :=
  ⟨n.kind, n.identifier, n.position⟩

/-- The name of the node at an index of a table. -/
def nameAt? (nodes : List Node) (index : Int) : Option String :=
  (Pairing.atIndex? nodes index).map (·.identifier)

namespace NodeTable

/-! ## Numbered members -/

section Number

variable {members : List Member} {targets : List (List Nat)}

theorem getElem?_number (i : Nat) :
    (number members targets)[i]? = members[i]?.map fun m =>
      ⟨m.kind, m.identifier, i, m.position, (targets[i]?.getD []).map Int.ofNat⟩ := by
  rw [number, List.getElem?_mapIdx]

theorem map_toMember_number : (number members targets).map Node.toMember = members := by
  refine List.ext_getElem? ?_
  intro i
  rw [List.getElem?_map, getElem?_number, Option.map_map]
  exact Option.map_id_apply

theorem length_number : (number members targets).length = members.length := by
  rw [← List.length_map Node.toMember, map_toMember_number]

theorem map_identifier_number : (number members targets).map (·.identifier) = names members := by
  have h : names ((number members targets).map Node.toMember) = names members := by
    rw [map_toMember_number]
  rw [← h, names, List.map_map]
  rfl

/-- The node at the place of a name is the node of that name. -/
theorem nameAt?_number {name : String} (h : name ∈ names members) :
    nameAt? (number members targets) (Int.ofNat ((names members).idxOf name)) = some name := by
  have hnames : (number members targets).map (·.identifier) = names members := map_identifier_number
  have hget : (names members)[(names members).idxOf name]? = some name := List.getElem?_idxOf h
  rw [← hnames, List.getElem?_map, hnames] at hget
  exact hget

end Number

end NodeTable

/-! ## What a table holds, line by line -/

namespace NodeTable

open Areas (Line Entry)

/-- **What a node table holds**, given by the logical lines of the areas text, the rows of the location
table and the difficulty. -/
structure IsExact (lines : List Line) (locations : List Location) (setting : Difficulty)
    (nodes : List Node) : Prop where
  /-- A node's index is its place. -/
  index_eq : ∀ i (h : i < nodes.length), nodes[i].index = i
  /-- Every name stands for one node. -/
  nodup : (nodes.map (·.identifier)).Nodup
  /-- The first nodes are the anchors, one for every line that declares one, in order. -/
  anchors : List.Forall₂
    (fun p n => n.kind = .anchor ∧ ∃ place, Areas.HeaderForm p.1.text n.identifier.toList place ∧
      n.position = place.bind Areas.positionOf?)
    (Areas.anchorLines lines) (nodes.take (Areas.anchorLines lines).length)
  /-- The others have the names that surviving entries of leaves lead to, in the order in which they
  are first led to. -/
  leaves : (nodes.drop (Areas.anchorLines lines).length).map (·.identifier) =
    (((Areas.survivorsIn setting lines).filter (·.kind ≠ .anchor)).map (·.target)).eraseDups
  /-- They are of the kind that those entries name. -/
  leaf_kind : ∀ n ∈ nodes.drop (Areas.anchorLines lines).length,
    ∀ e ∈ Areas.survivorsIn setting lines, e.target = n.identifier → n.kind = e.kind
  /-- Pickups and quests stand where the row of their name puts them on the map. -/
  leaf_position : ∀ n ∈ nodes, n.kind = .pickup ∨ n.kind = .quest →
    (∃ row ∈ locations, row.identifier = n.identifier) ∧
      ∀ row ∈ locations, row.identifier = n.identifier → n.position = row.mapPosition
  /-- States stand nowhere. -/
  state_position : ∀ n ∈ nodes, n.kind = .state → n.position = none
  /-- Only anchors have targets. -/
  targets_eq_nil : ∀ n ∈ nodes, n.kind ≠ .anchor → n.targets = []
  /-- Every target is the index of a node. -/
  targets_lt : ∀ n ∈ nodes, ∀ t ∈ n.targets, 0 ≤ t ∧ t < nodes.length
  /-- The targets of an anchor are, by name, those of the surviving entries of its body. -/
  targets : List.Forall₂
    (fun p n => n.targets.map (nameAt? nodes) =
      ((Areas.entriesIn p.2).filter (·.isPermitted setting)).map fun e => some e.target)
    (Areas.anchorLines lines) (nodes.take (Areas.anchorLines lines).length)

/-! ## The table of declarations that can be linked -/

section Table

variable {register : Register} {setting : Difficulty} {ds : List Areas.Declaration}

theorem distinct_membersOf (h : Linkable register setting ds) :
    Distinct (membersOf register.locations setting ds) :=
  h.distinct.extendAll _ _

theorem take_membersOf : (membersOf register.locations setting ds).take ds.length = ds.map anchor := by
  rw [membersOf, extendAll, List.take_left' (List.length_map _)]

/-- The first members are the anchors. -/
theorem getElem?_membersOf {i : Nat} (h : i < ds.length) :
    (membersOf register.locations setting ds)[i]? = some (anchor ds[i]) := by
  rw [← List.getElem?_take_of_lt h, take_membersOf, List.getElem?_map, List.getElem?_eq_getElem h]
  rfl

theorem drop_membersOf : (membersOf register.locations setting ds).drop ds.length
    = (firstReferences (ds.map (·.name)) (Areas.survivors setting ds)).map
        (leaf register.locations) := by
  rw [membersOf, extendAll, List.drop_left' (List.length_map _), names_map_anchor]

/-- The leaves by name. -/
theorem names_drop_membersOf (h : Linkable register setting ds) :
    names ((membersOf register.locations setting ds).drop ds.length) =
      (((Areas.survivors setting ds).filter (·.kind ≠ .anchor)).map (·.target)).eraseDups := by
  -- a target is a new name exactly if its entry is not one of an anchor
  have hfilter : ((Areas.survivors setting ds).map (·.target)).filter (· ∉ ds.map (·.name))
      = ((Areas.survivors setting ds).filter (·.kind ≠ .anchor)).map (·.target) := by
    rw [List.filter_map]
    refine congrArg _ (List.filter_congr ?_)
    intro e he
    simp only [Function.comp_apply, h.target_mem_iff he, ne_eq]
  rw [drop_membersOf, names, List.map_map, ← hfilter, ← map_target_firstReferences]
  rfl

/-- A leaf was added by a surviving entry that could add it. -/
theorem exists_of_mem_drop_membersOf (h : Linkable register setting ds) {m : Member}
    (hm : m ∈ (membersOf register.locations setting ds).drop ds.length) :
    ∃ e ∈ Areas.survivors setting ds, CanAdd register e ∧ m = leaf register.locations e := by
  rw [drop_membersOf] at hm
  obtain ⟨e, he, rfl⟩ := List.mem_map.mp hm
  have hsurvivor := (firstReferences_sublist _ _).subset he
  refine ⟨e, hsurvivor, h.consistent.fresh e hsurvivor ?_, rfl⟩
  rw [names_map_anchor]
  exact target_notMem_of_mem_firstReferences he

/-- A leaf is the same whichever of the surviving entries that lead to it added it. -/
theorem leaf_congr {locations : List Location} {e e' : Entry} (hkind : e.kind = e'.kind)
    (htarget : e.target = e'.target) : leaf locations e = leaf locations e' := by
  unfold leaf leafPosition
  rw [hkind, htarget]

/-- The members are the declared anchors and the leaves that surviving entries lead to. -/
theorem mem_membersOf_iff (h : Linkable register setting ds) {m : Member} :
    m ∈ membersOf register.locations setting ds ↔ (∃ d ∈ ds, m = anchor d) ∨
      ∃ e ∈ Areas.survivors setting ds, e.kind ≠ .anchor ∧ m = leaf register.locations e := by
  have hsplit : m ∈ membersOf register.locations setting ds ↔
      m ∈ ds.map anchor ∨ m ∈ (membersOf register.locations setting ds).drop ds.length := by
    have htake : (membersOf register.locations setting ds).take ds.length = ds.map anchor := take_membersOf
    rw [← htake, ← List.mem_append, List.take_append_drop]
  rw [hsplit, List.mem_map]
  refine or_congr ⟨?_, ?_⟩ ⟨?_, ?_⟩
  · rintro ⟨d, hd, rfl⟩
    exact ⟨d, hd, rfl⟩
  · rintro ⟨d, hd, rfl⟩
    exact ⟨d, hd, rfl⟩
  · intro hm
    obtain ⟨e, he, hadd, rfl⟩ := exists_of_mem_drop_membersOf h hm
    refine ⟨e, he, ?_, rfl⟩
    intro hkind
    simp only [CanAdd, hkind] at hadd
  · rintro ⟨e, he, hkind, rfl⟩
    -- the target is among the names of the leaves, and the leaf of that name was added by an entry
    -- that agrees with this one
    have hname : e.target ∈ names ((membersOf register.locations setting ds).drop ds.length) := by
      rw [names_drop_membersOf h, List.mem_eraseDups, List.mem_map]
      exact ⟨e, List.mem_filter.mpr ⟨he, by simpa using hkind⟩, rfl⟩
    obtain ⟨m, hm, hidentifier⟩ := List.mem_map.mp hname
    obtain ⟨e', he', -, rfl⟩ := exists_of_mem_drop_membersOf h hm
    rwa [leaf_congr (h.consistent.agree e he e' he' hidentifier.symm) hidentifier.symm]

theorem find?_eq_some_of_nodup {locations : List Location}
    (hn : (locations.map (·.identifier)).Nodup) {row : Location} (hrow : row ∈ locations) :
    locations.find? (·.identifier == row.identifier) = some row := by
  cases hf : locations.find? (·.identifier == row.identifier) with
  | none => exact absurd (beq_self_eq_true _) (List.find?_eq_none.mp hf row hrow)
  | some row' =>
    have hname : row'.identifier = row.identifier := by simpa using List.find?_some hf
    rw [List.inj_on_of_nodup_map hn (List.mem_of_find?_eq_some hf) hrow hname]

/-- A leaf that a location places stands where its row puts it. -/
theorem leaf_position_of_canAdd (hn : (register.locations.map (·.identifier)).Nodup) {e : Entry}
    (hadd : CanAdd register e) (hkind : e.kind = .pickup ∨ e.kind = .quest) :
    (∃ row ∈ register.locations, row.identifier = e.target) ∧
      ∀ row ∈ register.locations, row.identifier = e.target →
        leafPosition register.locations e = row.mapPosition := by
  have hfind : ∀ row ∈ register.locations, row.identifier = e.target →
      (register.locations.find? (·.identifier == e.target)).bind (·.mapPosition)
        = row.mapPosition := by
    intro row hrow hname
    rw [← hname, find?_eq_some_of_nodup hn hrow, Option.bind_some]
  unfold CanAdd at hadd
  unfold leafPosition
  rcases hkind with hkind | hkind
  · rw [hkind] at hadd ⊢
    exact ⟨hadd, hfind⟩
  · rw [hkind] at hadd ⊢
    exact ⟨hadd, hfind⟩

theorem length_le_length_tableOf :
    ds.length ≤ (tableOf register.locations setting ds).length := by
  rw [tableOf, length_number, membersOf, extendAll, List.length_append, List.length_map]
  omega

/-- The node of an anchor: its name and position, and where its surviving entries lead. -/
theorem forall₂_take_tableOf (register : Register) (setting : Difficulty)
    (ds : List Areas.Declaration) :
    List.Forall₂ (fun d n => (n.kind = .anchor ∧ n.identifier = d.name ∧ n.position = d.position) ∧
        n.targets.map (nameAt? (tableOf register.locations setting ds))
          = (d.survivors setting).map fun e => some e.target)
      ds ((tableOf register.locations setting ds).take ds.length) := by
  -- declarations and nodes are compared place by place
  rw [List.forall₂_iff_get]
  refine ⟨by rw [List.length_take, Nat.min_eq_left length_le_length_tableOf], ?_⟩
  intro i h h'
  have hnode : (tableOf register.locations setting ds)[i]? = some ⟨.anchor, ds[i].name, i,
      ds[i].position, ((ds[i].survivors setting).map fun e =>
        (names (membersOf register.locations setting ds)).idxOf e.target).map Int.ofNat⟩ := by
    rw [tableOf, getElem?_number, getElem?_membersOf h, List.getElem?_map,
      List.getElem?_eq_getElem h]
    rfl
  obtain ⟨_, hget⟩ := List.getElem?_eq_some_iff.mp hnode
  simp only [List.get_eq_getElem, List.getElem_take, hget, true_and, List.map_map]
  refine List.map_congr_left ?_
  intro e he
  have hsurvivor : e ∈ Areas.survivors setting ds :=
    List.mem_flatMap.mpr ⟨ds[i], List.getElem_mem h, he⟩
  exact nameAt?_number (target_mem_names_extendAll hsurvivor)

/-- The nodes of a table are anchors and leaves. -/
theorem mem_tableOf {n : Node} (hn : n ∈ tableOf register.locations setting ds) :
    (∃ d ∈ ds, n.toMember = anchor d ∧ n.targets = ((d.survivors setting).map fun e =>
        (names (membersOf register.locations setting ds)).idxOf e.target).map Int.ofNat) ∨
      n.toMember ∈ (membersOf register.locations setting ds).drop ds.length ∧ n.targets = [] := by
  obtain ⟨i, hi⟩ := List.getElem?_of_mem hn
  rw [tableOf, getElem?_number] at hi
  obtain ⟨m, hm, rfl⟩ := Option.map_eq_some_iff.mp hi
  -- there are targets for as many members as there are declarations
  by_cases h : i < ds.length
  · left
    rw [getElem?_membersOf h] at hm
    refine ⟨ds[i], List.getElem_mem h, (Option.some.inj hm).symm, ?_⟩
    rw [List.getElem?_map, List.getElem?_eq_getElem h]
    rfl
  · right
    constructor
    · refine List.mem_of_getElem? (i := i - ds.length) ?_
      rw [List.getElem?_drop, Nat.add_sub_cancel' (Nat.not_lt.mp h)]
      exact hm
    · rw [List.getElem?_map, List.getElem?_eq_none (Nat.not_lt.mp h)]
      rfl

/-- A node that is no anchor was added by a surviving entry that could add it. -/
theorem exists_of_mem_tableOf (h : Linkable register setting ds) {n : Node}
    (hn : n ∈ tableOf register.locations setting ds) (hkind : n.kind ≠ .anchor) :
    ∃ e ∈ Areas.survivors setting ds, CanAdd register e ∧
      n.toMember = leaf register.locations e := by
  rcases mem_tableOf hn with ⟨d, -, hmember, -⟩ | ⟨hmember, -⟩
  · exact absurd (congrArg Member.kind hmember) hkind
  · exact exists_of_mem_drop_membersOf h hmember

/-- An anchor was declared. -/
theorem exists_anchor_of_mem_tableOf (h : Linkable register setting ds) {n : Node}
    (hn : n ∈ tableOf register.locations setting ds) (hkind : n.kind = .anchor) :
    ∃ d ∈ ds, n.toMember = anchor d := by
  rcases mem_tableOf hn with ⟨d, hd, hmember, -⟩ | ⟨hmember, -⟩
  · exact ⟨d, hd, hmember⟩
  · -- what stands behind the anchors was added for an entry of another kind
    obtain ⟨e, -, hadd, hleaf⟩ := exists_of_mem_drop_membersOf h hmember
    have hekind : n.kind = e.kind := congrArg Member.kind hleaf
    rw [hkind] at hekind
    simp only [CanAdd, ← hekind] at hadd

theorem toMember_mem_drop {n : Node}
    (hn : n ∈ (tableOf register.locations setting ds).drop ds.length) :
    n.toMember ∈ (membersOf register.locations setting ds).drop ds.length := by
  have h := List.mem_map_of_mem (f := Node.toMember) hn
  rwa [tableOf, List.map_drop, map_toMember_number] at h

theorem nodup_tableOf (h : Linkable register setting ds) :
    ((tableOf register.locations setting ds).map (·.identifier)).Nodup := by
  rw [tableOf, map_identifier_number]
  exact distinct_membersOf h

theorem index_eq_of_tableOf (i : Nat) (h : i < (tableOf register.locations setting ds).length) :
    (tableOf register.locations setting ds)[i].index = i := by
  have hget := List.getElem?_eq_getElem h
  conv at hget => lhs; rw [tableOf, getElem?_number]
  obtain ⟨m, -, hm⟩ := Option.map_eq_some_iff.mp hget
  rw [← hm]

/-- The leaves of the table by name. -/
theorem identifier_drop_tableOf (h : Linkable register setting ds) :
    ((tableOf register.locations setting ds).drop ds.length).map (·.identifier) =
      (((Areas.survivors setting ds).filter (·.kind ≠ .anchor)).map (·.target)).eraseDups := by
  rw [← names_drop_membersOf h, tableOf, List.map_drop, map_identifier_number, names, names,
    List.map_drop]

/-- No leaf is an anchor. -/
theorem kind_ne_anchor_of_mem_drop (h : Linkable register setting ds) {n : Node}
    (hn : n ∈ (tableOf register.locations setting ds).drop ds.length) : n.kind ≠ .anchor := by
  obtain ⟨e, -, hadd, hmember⟩ := exists_of_mem_drop_membersOf h (toMember_mem_drop hn)
  have hkind : n.kind = e.kind := congrArg Member.kind hmember
  rw [hkind]
  intro hanchor
  simp only [CanAdd, hanchor] at hadd

/-- A node is of the kind that all surviving entries of its name agree in. -/
theorem kind_eq_of_mem_tableOf (h : Linkable register setting ds) {n : Node}
    (hn : n ∈ tableOf register.locations setting ds) {e : Entry}
    (he : e ∈ Areas.survivors setting ds) (htarget : e.target = n.identifier) : n.kind = e.kind := by
  rcases mem_tableOf hn with ⟨d, hd, hmember, -⟩ | ⟨hmember, -⟩
  · have hkind : n.kind = .anchor := congrArg Member.kind hmember
    have hname : n.identifier = d.name := congrArg Member.identifier hmember
    have hdeclared : e.target ∈ ds.map (·.name) := List.mem_map.mpr ⟨d, hd, by rw [htarget, hname]⟩
    rw [hkind, (h.target_mem_iff he).mp hdeclared]
  · obtain ⟨e', he', -, hmember⟩ := exists_of_mem_drop_membersOf h hmember
    have hkind : n.kind = e'.kind := congrArg Member.kind hmember
    have hname : n.identifier = e'.target := congrArg Member.identifier hmember
    rw [hkind]
    exact h.consistent.agree e' he' e he (hname.symm.trans htarget.symm)

theorem targets_lt_of_mem_tableOf {n : Node} (hn : n ∈ tableOf register.locations setting ds) :
    ∀ t ∈ n.targets, 0 ≤ t ∧ t < (tableOf register.locations setting ds).length := by
  intro t ht
  rcases mem_tableOf hn with ⟨d, hd, -, htargets⟩ | ⟨-, htargets⟩
  · rw [htargets] at ht
    obtain ⟨i, hi, rfl⟩ := List.mem_map.mp ht
    obtain ⟨e, he, rfl⟩ := List.mem_map.mp hi
    have hsurvivor : e ∈ Areas.survivors setting ds := List.mem_flatMap.mpr ⟨d, hd, he⟩
    have hlt : (names (membersOf register.locations setting ds)).idxOf e.target
        < (tableOf register.locations setting ds).length := by
      rw [tableOf, length_number, ← length_names]
      exact List.idxOf_lt_length_of_mem (target_mem_names_extendAll hsurvivor)
    exact ⟨Int.natCast_nonneg _, Int.ofNat_lt.mpr hlt⟩
  · rw [htargets] at ht
    cases ht

/-- The table of what lines declare holds what `IsExact` says of the lines. -/
theorem tableOf_isExact {lines : List Line} (hgrammar : Areas.Grammar lines)
    (hn : (register.locations.map (·.identifier)).Nodup)
    (h : Linkable register setting (Areas.declarationsIn lines)) :
    IsExact lines register.locations setting
      (tableOf register.locations setting (Areas.declarationsIn lines)) := by
  have hlines := Areas.forall₂_declarationsIn hgrammar
  have hnodes := forall₂_take_tableOf register setting (Areas.declarationsIn lines)
  rw [← hlines.length_eq] at hnodes
  refine
    { index_eq := index_eq_of_tableOf
      nodup := nodup_tableOf h
      anchors := ?anchors
      leaves := ?leaves
      leaf_kind := ?leaf_kind
      leaf_position := ?leaf_position
      state_position := ?state_position
      targets_eq_nil := ?targets_eq_nil
      targets_lt := fun n hmem => targets_lt_of_mem_tableOf hmem
      targets := ?targets }
  case anchors =>
    -- a header line, its declaration and its node, one behind the other
    refine forall₂_comp ?_ hlines hnodes
    rintro p d n ⟨⟨place, hform, hplace⟩, -⟩ ⟨⟨hkind, hname, hposition⟩, -⟩
    exact ⟨hkind, place, hname ▸ hform, hposition.trans hplace⟩
  case leaves =>
    rw [hlines.length_eq, identifier_drop_tableOf h, Areas.survivorsIn_eq hgrammar]
  case leaf_kind =>
    intro n hmem e he htarget
    rw [hlines.length_eq] at hmem
    rw [Areas.survivorsIn_eq hgrammar] at he
    exact kind_eq_of_mem_tableOf h (List.mem_of_mem_drop hmem) he htarget
  case leaf_position =>
    intro n hmem hkind
    obtain ⟨e, -, hadd, hmember⟩ := exists_of_mem_tableOf h hmem (ne_anchor_of_placed hkind)
    have hkind' : n.kind = e.kind := congrArg Member.kind hmember
    have hname : n.identifier = e.target := congrArg Member.identifier hmember
    have hposition : n.position = leafPosition register.locations e :=
      congrArg Member.position hmember
    rw [hkind'] at hkind
    rw [hname, hposition]
    exact leaf_position_of_canAdd hn hadd hkind
  case state_position =>
    intro n hmem hkind
    obtain ⟨e, -, -, hmember⟩ := exists_of_mem_tableOf h hmem (by simp [hkind])
    have hkind' : n.kind = e.kind := congrArg Member.kind hmember
    have hposition : n.position = leafPosition register.locations e :=
      congrArg Member.position hmember
    rw [hposition, leafPosition, ← hkind', hkind]
  case targets_eq_nil =>
    intro n hmem hkind
    rcases mem_tableOf hmem with ⟨d, -, hmember, -⟩ | ⟨-, htargets⟩
    · exact absurd (congrArg Member.kind hmember) hkind
    · exact htargets
  case targets =>
    refine forall₂_comp ?_ hlines hnodes
    rintro p d n ⟨-, -, hentries⟩ ⟨-, htargets⟩
    rw [htargets, ← hentries]
    rfl

end Table

end NodeTable

/-- **Every node table that is read holds exactly what the areas text says.** -/
theorem Logic.read_isExact {areas locations states : String} {setting : Difficulty} {validate : Bool}
    {logic : Logic} (h : Logic.read areas locations states setting validate = .ok logic) :
    readLocations locations.toList = .ok logic.locations ∧
      NodeTable.IsExact (Areas.logicalLines areas.toList) logic.locations setting logic.nodes := by
  obtain ⟨hlocations, -, hgrammar, hds, hlink, hnodes⟩ := Logic.read_eq_ok_iff.mp h
  refine ⟨hlocations, ?_⟩
  rw [hds] at hlink hnodes
  rw [hnodes]
  exact NodeTable.tableOf_isExact hgrammar (readLocations_nodup hlocations) hlink

/-- An anchor that is led to before it is declared, and a pickup that is named twice. -/
def Areas.twoAnchors : String :=
  "anchor Start:\n  conn End: free\n  pickup Gem:\n    free\n  conn End: impossible\n" ++
    "anchor End at 1, 2:\n  refill\n  pickup Gem: free\n"

theorem Logic.read_isExact_twoAnchors :
    ∃ logic, Logic.read Areas.twoAnchors "Gem,Zone,,,3,4\n" "" .unrestricted false = .ok logic ∧
      logic.nodes.map (fun n => (n.identifier, n.targets))
        = [("Start", [1, 2]), ("End", [2]), ("Gem", [])] ∧
      NodeTable.IsExact (Areas.logicalLines Areas.twoAnchors.toList) logic.locations .unrestricted
        logic.nodes := by
  have h : (Logic.read Areas.twoAnchors "Gem,Zone,,,3,4\n" "" .unrestricted false).map
      (·.nodes.map fun n => (n.identifier, n.targets))
      = .ok [("Start", [1, 2]), ("End", [2]), ("Gem", [])] := by
    decide +kernel
  obtain ⟨logic, hread, hnodes⟩ := Except.map_eq_ok_iff.mp h
  exact ⟨logic, hread, hnodes, (Logic.read_isExact hread).2⟩

end AreaAtlas
