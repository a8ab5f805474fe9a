import AreaAtlas.Proofs.Graph.Multiplicity

/-!
# The order and orientation of connections

Edges are taken from the last to the first, and the partner that an edge takes with it is one that is left,
so the edges that connections are named after stand in the order in which they are taken.  Where edges are
declared in the order of their anchors, connections therefore begin at later anchors first, and one for both
directions begins at the later of its two ends.  An edge that finds no partner leaves none behind for the
edges before it, so between two names connections for one direction come last.  `Graph.isOriented_of_build`
is the main statement.
-/

namespace AreaAtlas

/-- **The order and orientation of the connections** of a graph, given by the names of anchors in the order
of their declaration. -/
structure Graph.IsOriented (g : Graph) (declared : List String) : Prop where
  /-- Every name is declared once. -/
  nodup : declared.Nodup
  /-- Connections begin at declared anchors. -/
  start_mem : ∀ c ∈ g.connections, c.start ∈ declared
  /-- Along the connections the start never goes up. -/
  start_le : g.connections.Pairwise fun c d => declared.idxOf d.start ≤ declared.idxOf c.start
  /-- A connection for both directions between two names begins at the one that is declared later. -/
  finish_lt : ∀ c ∈ g.connections, c.unidirectional = false → c.start ≠ c.finish →
    c.finish ∈ declared ∧ declared.idxOf c.finish < declared.idxOf c.start
  /-- Of the connections between the same names those for both directions come first. -/
  twoWay_first : g.connections.Pairwise fun c d => c.ends = d.ends →
    d.unidirectional = false → c.unidirectional = false

namespace Pairing

/-! ## Taking edges -/

theorem eraseLast_sublist {α : Type} (p : α → Bool) (l : List α) : (eraseLast p l).Sublist l := by
  have h := (List.eraseP_sublist (p := p) (l := l.reverse)).reverse
  rwa [List.reverse_reverse] at h

/-- The edges that connections are named after stand in their order. -/
theorem map_start_pair_sublist (l : List Edge) :
    ((pair l).map (·.start)).Sublist (l.map (·.ends.1)) := by
  induction l using pair.induct with
  | case1 => simp
  | case2 e earlier hany ih =>
    rw [pair_cons_of_any hany, List.map_cons, List.map_cons]
    exact (ih.trans ((eraseLast_sublist _ _).map _)).cons_cons _
  | case3 e earlier hany ih =>
    rw [pair_cons_of_not_any hany, List.map_cons, List.map_cons]
    exact ih.cons_cons _

/-- A connection for both directions ends where an edge behind the one it is named after begins, so it does
not go up if the edges never go up. -/
theorem finish_le_of_mem_pair (rank : String → Nat) {l : List Edge} (h : MeetByName l)
    (hrank : l.Pairwise fun e f => rank f.ends.1 ≤ rank e.ends.1) {c : Connection} (hc : c ∈ pair l)
    (hboth : c.unidirectional = false) : rank c.finish ≤ rank c.start ∧ c.finish ∈ l.map (·.ends.1) := by
  induction l using pair.induct with
  | case1 =>
    rw [pair_nil] at hc
    cases hc
  | case2 e earlier hany ih =>
    obtain ⟨hfirst, hrest⟩ := List.pairwise_cons.mp hrank
    rw [pair_cons_of_any hany] at hc
    rcases List.mem_cons.mp hc with rfl | hc
    · obtain ⟨f, hf, hback⟩ := List.any_eq_true.mp hany
      have hends := (h e List.mem_cons_self f (List.mem_cons_of_mem _ hf)).mp hback
      have hstart : f.ends.1 = e.finish.identifier := congrArg Prod.fst hends
      have hle := hfirst f hf
      rw [hstart] at hle
      refine ⟨hle, List.mem_map.mpr ⟨f, List.mem_cons_of_mem _ hf, hstart⟩⟩
    · have hsub := eraseLast_sublist e.reverses earlier
      obtain ⟨hle, hmem⟩ := ih h.eraseLast (hrest.sublist hsub) hc
      exact ⟨hle, List.mem_cons_of_mem _ ((hsub.map _).subset hmem)⟩
  | case3 e earlier hany ih =>
    obtain ⟨-, hrest⟩ := List.pairwise_cons.mp hrank
    rw [pair_cons_of_not_any hany] at hc
    rcases List.mem_cons.mp hc with rfl | hc
    · cases hboth
    · obtain ⟨hle, hmem⟩ := ih h.of_cons hrest hc
      exact ⟨hle, List.mem_cons_of_mem _ hmem⟩

/-- No connection for both directions is left between the ends of an edge that finds no partner. -/
theorem unidirectional_of_not_any {e : Edge} {earlier : List Edge} (h : MeetByName (e :: earlier))
    (hany : ¬earlier.any e.reverses = true) {c : Connection} (hc : c ∈ pair earlier)
    (hends : s(e.ends.1, e.ends.2) = c.ends) : c.unidirectional = true := by
  by_contra hboth
  rw [Bool.not_eq_true] at hboth
  obtain ⟨f, hf, hcf, hpartner⟩ := exists_of_mem_pair hc
  obtain ⟨f', hf', hback⟩ := hpartner hboth
  have hmem : ∀ {f}, f ∈ earlier → f ∈ e :: earlier := fun hf => List.mem_cons_of_mem _ hf
  have hf'ends := (h f (hmem hf) f' (hmem hf')).mp hback
  have hnone : ∀ f ∈ earlier, f.ends ≠ e.ends.swap := fun f hf hswap =>
    hany (List.any_eq_true.mpr ⟨f, hf, (h e List.mem_cons_self f (hmem hf)).mpr hswap⟩)
  rw [hcf] at hends
  have hends : s(e.ends.1, e.ends.2) = s(f.ends.1, f.ends.2) := hends
  -- the edge that it is made of leads along this one or back, and its partner the other way
  rcases Sym2.eq_iff.mp hends with ⟨hfirst, hsecond⟩ | ⟨hfirst, hsecond⟩
  · have heq : e.ends = f.ends := Prod.ext hfirst hsecond
    exact hnone f' hf' (hf'ends.trans (congrArg Prod.swap heq.symm))
  · exact hnone f hf (Prod.ext hsecond.symm hfirst.symm)

/-- **Between two names connections for one direction come last.** -/
theorem pairwise_pair_twoWay_first {l : List Edge} (h : MeetByName l) :
    (pair l).Pairwise fun c d => c.ends = d.ends →
      d.unidirectional = false → c.unidirectional = false := by
  induction l using pair.induct with
  | case1 => simp
  | case2 e earlier hany ih =>
    rw [pair_cons_of_any hany, List.pairwise_cons]
    exact ⟨fun _ _ _ _ => rfl, ih h.eraseLast⟩
  | case3 e earlier hany ih =>
    rw [pair_cons_of_not_any hany, List.pairwise_cons]
    refine ⟨?_, ih h.of_cons⟩
    intro d hd hends hboth
    rw [unidirectional_of_not_any h hany hd hends] at hboth
    cases hboth

end Pairing

open Pairing

/-! ## Declared edges -/

/-- Passages begin at anchors in the order of their declaration. -/
theorem Areas.pairwise_passages {ds : List Areas.Declaration} (hn : (ds.map (·.name)).Nodup)
    (setting : Difficulty) : (Areas.passages setting ds).Pairwise fun p q =>
      (ds.map (·.name)).idxOf p.1 ≤ (ds.map (·.name)).idxOf q.1 := by
  have hstart : ∀ d : Areas.Declaration, ∀ p ∈ d.passages setting, p.1 = d.name := by
    intro d p hp
    obtain ⟨e, -, rfl⟩ := List.mem_map.mp hp
    rfl
  unfold Areas.passages
  rw [List.pairwise_flatMap]
  constructor
  · -- the passages of one anchor begin at the same name
    intro d _
    refine List.pairwise_of_forall_mem_list ?_
    intro p hp q hq
    rw [hstart d p hp, hstart d q hq]
  · rw [List.pairwise_iff_getElem]
    intro i j hi hj hij p hp q hq
    have hidx : ∀ k (hk : k < ds.length), (ds.map (·.name)).idxOf ds[k].name = k := by
      intro k hk
      have h := hn.idxOf_getElem k (by rwa [List.length_map])
      rwa [List.getElem_map] at h
    rw [hstart _ p hp, hstart _ q hq, hidx i hi, hidx j hj]
    exact hij.le

/-- Passages begin at declared names. -/
theorem Areas.fst_mem_of_mem_passages {ds : List Areas.Declaration} {setting : Difficulty}
    {p : String × String} (h : p ∈ Areas.passages setting ds) : p.1 ∈ ds.map (·.name) := by
  obtain ⟨d, hd, hp⟩ := List.mem_flatMap.mp h
  obtain ⟨e, -, rfl⟩ := List.mem_map.mp hp
  exact List.mem_map_of_mem hd

/-- The graph of the table of declarations is oriented by them. -/
theorem Graph.isOriented_ofNodes {register : NodeTable.Register} {ds : List Areas.Declaration}
    (hlink : NodeTable.Linkable register .unrestricted ds) {nodes : List Node}
    (hnodes : nodes = NodeTable.tableOf register.locations .unrestricted ds)
    (hmeet : MeetByName (edges nodes (placed nodes)).reverse) :
    (Graph.ofNodes nodes).IsOriented (ds.map (·.name)) := by
  have hedges := map_ends_edges hlink hnodes
  have hstarts : ((edges nodes (placed nodes)).reverse.map (·.ends.1)).Pairwise fun a b =>
      (ds.map (·.name)).idxOf b ≤ (ds.map (·.name)).idxOf a := by
    have hpassages := (Areas.pairwise_passages hlink.nodup .unrestricted).filter
      fun p => p.1 ∈ placedNames nodes ∧ p.2 ∈ placedNames nodes
    rw [← hedges, List.pairwise_map] at hpassages
    rw [List.pairwise_map, List.pairwise_reverse]
    exact hpassages
  have hrank := hstarts
  rw [List.pairwise_map] at hrank
  have hdeclared : ∀ name ∈ (edges nodes (placed nodes)).reverse.map (·.ends.1),
      name ∈ ds.map (·.name) := by
    intro name hname
    obtain ⟨e, he, rfl⟩ := List.mem_map.mp hname
    have hpassage := List.mem_map_of_mem (f := Edge.ends) (List.mem_reverse.mp he)
    rw [hedges] at hpassage
    exact Areas.fst_mem_of_mem_passages (List.mem_filter.mp hpassage).1
  have hsublist := map_start_pair_sublist (edges nodes (placed nodes)).reverse
  have hstarts' := hstarts.sublist hsublist
  rw [List.pairwise_map] at hstarts'
  refine
    { nodup := hlink.nodup
      start_mem := fun c hc => hdeclared _ (hsublist.subset (List.mem_map_of_mem hc))
      start_le := hstarts'
      finish_lt := ?finish_lt
      twoWay_first := pairwise_pair_twoWay_first hmeet }
  case finish_lt =>
    intro c hc hboth hne
    obtain ⟨hle, hmem⟩ := finish_le_of_mem_pair (fun name => (ds.map (·.name)).idxOf name) hmeet hrank
      hc hboth
    have hfinish := hdeclared _ hmem
    refine ⟨hfinish, lt_of_le_of_ne hle ?_⟩
    -- different names are declared at different places
    exact fun heq => hne ((List.idxOf_inj hfinish).mp heq).symm

/-- **Connections begin at later anchors first, and at the later of their ends if they lead both ways.** -/
theorem Graph.isOriented_of_build {areas locations : String} {g : Graph}
    (h : Graph.build areas locations = .ok g) :
    ∃ ds, Areas.readDeclarations areas.toList = .ok ds ∧ g.IsOriented (ds.map (·.name)) := by
  obtain ⟨logic, hlogic, rfl⟩ := Except.map_eq_ok_iff.mp h
  have hmeet := (isExact_of_readUnrestricted hlogic).meetByName
  obtain ⟨-, -, hgrammar, hds, hlink, hnodes⟩ := Logic.read_eq_ok_iff.mp hlogic
  exact ⟨logic.declarations, (Areas.readDeclarations_readsAs _ _).mpr ⟨hgrammar, hds⟩,
    Graph.isOriented_ofNodes hlink hnodes hmeet⟩

/-- A repeated entry, one that leads to its own anchor, and one to a pickup. -/
def Areas.interleavedEntries : String :=
  "anchor A at 1, 2:\n  conn B: free\n  conn B: free\n  conn A: free\n" ++
    "anchor B at 3, 4:\n  conn A: free\n  pickup Gem: free\n"

theorem Graph.isOriented_of_build_interleavedEntries :
    ∃ g ds, Graph.build Areas.interleavedEntries "Gem,Zone,,,5,6\n" = .ok g ∧
      g.connections.map (fun c => (c.start, c.finish, c.unidirectional))
        = [("B", "Gem", true), ("B", "A", false), ("A", "A", true), ("A", "B", true)] ∧
      Areas.readDeclarations Areas.interleavedEntries.toList = .ok ds ∧
      g.IsOriented (ds.map (·.name)) := by
  have hbuild : (Graph.build Areas.interleavedEntries "Gem,Zone,,,5,6\n").map
      (·.connections.map fun c => (c.start, c.finish, c.unidirectional))
      = .ok [("B", "Gem", true), ("B", "A", false), ("A", "A", true), ("A", "B", true)] := by
    decide +kernel
  obtain ⟨g, hg, hconnections⟩ := Except.map_eq_ok_iff.mp hbuild
  obtain ⟨ds, hds, horiented⟩ := Graph.isOriented_of_build hg
  exact ⟨g, ds, hg, hconnections, hds, horiented⟩

end AreaAtlas
