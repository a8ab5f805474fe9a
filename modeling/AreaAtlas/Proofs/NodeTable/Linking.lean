import AreaAtlas.Proofs.Areas.Grammar
import AreaAtlas.Proofs.NodeTable.Resolution

/-!
# Linking declarations

The surviving entries of all anchors are resolved in one run, which begins with the anchors as members.
`build_readsAs` gives the node table in closed form, and says which declarations have one;
`Logic.read_eq_ok_iff` does so for whole documents.
-/

namespace AreaAtlas.NodeTable

theorem link_eq_ok_iff {register : Register} {setting : Difficulty} {members : List Member}
    (hd : Distinct members) {ds : List Areas.Declaration} {members' : List Member}
    {targets : List (List Nat)} :
    link register setting members ds = .ok (members', targets) ↔
      Consistent register members (Areas.survivors setting ds) ∧
        members' = extendAll register.locations members (Areas.survivors setting ds) ∧
        targets = ds.map fun d =>
          (d.survivors setting).map fun e => (names members').idxOf e.target := by
  induction ds generalizing members members' targets with
  | nil =>
    simp only [link, Areas.survivors, List.flatMap_nil, Except.ok.injEq, Prod.mk.injEq,
      consistent_nil, true_and, extendAll_nil, List.map_nil, eq_comm]
  | cons d rest ih =>
    have hd' := hd.extendAll register.locations (d.survivors setting)
    have hcons : Areas.survivors setting (d :: rest)
        = d.survivors setting ++ Areas.survivors setting rest := rfl
    -- what the first anchor's entries lead to keeps its place while the others are resolved
    have hkeep : (d.survivors setting).map (fun e => (names (extendAll register.locations
          (extendAll register.locations members (d.survivors setting))
            (Areas.survivors setting rest))).idxOf e.target)
        = (d.survivors setting).map fun e => (names (extendAll register.locations members
            (d.survivors setting))).idxOf e.target := by
      refine List.map_congr_left ?_
      intro e he
      exact idxOf_names_extendAll (target_mem_names_extendAll he)
    rw [hcons, consistent_append_iff, extendAll_append, link, Except.bind_eq_ok_iff]
    show (∃ a, resolveAll register members (d.survivors setting) = .ok a ∧ _) ↔ _
    simp only [Except.bind_eq_ok_iff, Prod.exists, resolveAll_eq_ok_iff hd, pure, Except.pure,
      Except.ok.injEq, Prod.mk.injEq]
    constructor
    · rintro ⟨_, _, ⟨hfirst, rfl, rfl⟩, members', others, hrest, rfl, rfl⟩
      obtain ⟨hothers, rfl, rfl⟩ := (ih hd').mp hrest
      exact ⟨⟨hfirst, hothers⟩, rfl, by rw [List.map_cons, hkeep]⟩
    · rintro ⟨⟨hfirst, hothers⟩, rfl, rfl⟩
      exact ⟨_, _, ⟨hfirst, rfl, rfl⟩, _, _, (ih hd').mpr ⟨hothers, rfl, rfl⟩, rfl,
        by rw [List.map_cons, hkeep]⟩

theorem repeated?_eq_none_iff {known : List String} {ds : List Areas.Declaration} :
    repeated? known ds = none ↔
      (∀ d ∈ ds, d.name ∉ known) ∧ (ds.map (·.name)).Nodup := by
  induction ds generalizing known with
  | nil => simp [repeated?]
  | cons d rest ih =>
    unfold repeated?
    by_cases h : d.name ∈ known
    · simp [h]
    · rw [if_neg h, ih, List.forall_mem_cons, List.map_cons, List.nodup_cons]
      simp only [List.mem_cons, not_or, List.mem_map, not_exists, not_and, h, not_false_eq_true,
        true_and]
      constructor
      · rintro ⟨hrest, hnodup⟩
        exact ⟨fun d' hd' => (hrest d' hd').2, fun d' hd' => (hrest d' hd').1, hnodup⟩
      · rintro ⟨hrest, hfirst, hnodup⟩
        exact ⟨fun d' hd' => ⟨hfirst d' hd', hrest d' hd'⟩, hnodup⟩

/-- The members that declarations give: the anchors, and the leaves that their surviving entries lead
to. -/
def membersOf (locations : List Location) (setting : Difficulty) (ds : List Areas.Declaration) :
    List Member :=
  extendAll locations (ds.map anchor) (Areas.survivors setting ds)

/-- The node table of declarations, given by the names in them. -/
def tableOf (locations : List Location) (setting : Difficulty) (ds : List Areas.Declaration) :
    List Node :=
  number (membersOf locations setting ds) (ds.map fun d =>
    (d.survivors setting).map fun e => (names (membersOf locations setting ds)).idxOf e.target)

/-- Declarations that have a node table. -/
structure Linkable (register : Register) (setting : Difficulty) (ds : List Areas.Declaration) :
    Prop where
  nodup : (ds.map (·.name)).Nodup
  consistent : Consistent register (ds.map anchor) (Areas.survivors setting ds)

theorem names_map_anchor (ds : List Areas.Declaration) : names (ds.map anchor) = ds.map (·.name) := by
  rw [names, List.map_map]
  rfl

theorem Linkable.distinct {register : Register} {setting : Difficulty}
    {ds : List Areas.Declaration} (h : Linkable register setting ds) : Distinct (ds.map anchor) := by
  rw [Distinct, names_map_anchor]
  exact h.nodup

/-- Surviving entries lead to declared anchors if they say so, and otherwise to other names. -/
theorem Linkable.target_mem_iff {register : Register} {setting : Difficulty}
    {ds : List Areas.Declaration} (h : Linkable register setting ds) {e : Areas.Entry}
    (he : e ∈ Areas.survivors setting ds) : e.target ∈ ds.map (·.name) ↔ e.kind = .anchor := by
  constructor
  · intro hmem
    obtain ⟨d, hd, hname⟩ := List.mem_map.mp hmem
    exact (h.consistent.known e he (anchor d) (List.mem_map_of_mem hd) hname).symm
  · intro hkind
    by_contra hnew
    have hadd := h.consistent.fresh e he (by rwa [names_map_anchor])
    simp only [CanAdd, hkind] at hadd

/-- **Linking declarations in closed form.** -/
theorem build_readsAs (register : Register) (setting : Difficulty) :
    ReadsAs (build register setting) (Linkable register setting)
      (tableOf register.locations setting) := by
  intro ds nodes
  unfold build
  cases hr : repeated? [] ds with
  | some d =>
    -- a repeated name is a fault, and the declarations cannot be linked
    have hdup : ¬(ds.map (·.name)).Nodup := by
      intro hnodup
      rw [repeated?_eq_none_iff.mpr ⟨by simp, hnodup⟩] at hr
      cases hr
    constructor
    · intro h
      cases h
    · rintro ⟨hlink, -⟩
      exact absurd hlink.nodup hdup
  | none =>
    have hnodup := (repeated?_eq_none_iff.mp hr).2
    have hd : Distinct (ds.map anchor) := by
      rw [Distinct, names_map_anchor]
      exact hnodup
    show (link register setting (ds.map anchor) ds >>= fun p => .ok (number p.1 p.2)) = .ok nodes ↔ _
    rw [Except.bind_eq_ok_iff]
    simp only [Prod.exists, link_eq_ok_iff hd, Except.ok.injEq]
    constructor
    · rintro ⟨_, _, ⟨hcons, rfl, rfl⟩, rfl⟩
      exact ⟨⟨hnodup, hcons⟩, rfl⟩
    · rintro ⟨hlink, rfl⟩
      exact ⟨_, _, ⟨hlink.consistent, rfl, rfl⟩, rfl⟩

end AreaAtlas.NodeTable

namespace AreaAtlas

/-- **Reading documents in closed form.** -/
theorem Logic.read_eq_ok_iff {areas locations states : String} {setting : Difficulty}
    {validate : Bool} {logic : Logic} :
    Logic.read areas locations states setting validate = .ok logic ↔
      readLocations locations.toList = .ok logic.locations ∧
      readStates states.toList = .ok logic.states ∧
      Areas.Grammar (Areas.logicalLines areas.toList) ∧
      logic.declarations = Areas.declarationsIn (Areas.logicalLines areas.toList) ∧
      NodeTable.Linkable ⟨logic.locations, if validate then some logic.states else none⟩ setting
        logic.declarations ∧
      logic.nodes = NodeTable.tableOf logic.locations setting logic.declarations := by
  unfold Logic.read
  rw [Except.bind_eq_ok_iff]
  simp only [Except.bind_eq_ok_iff, Except.mapError_eq_ok_iff, NodeTable.build_readsAs _ _ _,
    Areas.readDeclarations_readsAs _, pure, Except.pure, Except.ok.injEq]
  constructor
  · rintro ⟨ls, hls, sts, hsts, ds, ⟨hgrammar, hds⟩, nodes, ⟨hlink, hnodes⟩, rfl⟩
    exact ⟨hls, hsts, hgrammar, hds, hlink, hnodes⟩
  · rintro ⟨hls, hsts, hgrammar, hds, hlink, hnodes⟩
    exact ⟨_, hls, _, hsts, _, ⟨hgrammar, hds⟩, _, ⟨hlink, hnodes⟩, rfl⟩

end AreaAtlas
