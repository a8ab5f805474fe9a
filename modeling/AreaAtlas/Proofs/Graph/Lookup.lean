import AreaAtlas.Graph.Build
import AreaAtlas.Proofs.Graph.Edges
import AreaAtlas.Proofs.Graph.Pairing

/-!
# Looking up connections

Whether two places are connected, and in which directions, is decided by the surviving entries of the
areas text alone.  Repeated entries make repeated connections, and a lookup sees only the first of them;
but that is the one of the latest edge, and it is for both directions whenever an edge leads back.
-/

namespace AreaAtlas

/-- A surviving entry of the one leads to the other, and both have a place. -/
def Leads (lines : List Areas.Line) (nodes : List Node) (a b : String) : Prop :=
  (a, b) ∈ Areas.passages .unrestricted (Areas.declarationsIn lines) ∧
    a ∈ placedNames nodes ∧ b ∈ placedNames nodes

instance (lines : List Areas.Line) (nodes : List Node) (a b : String) :
    Decidable (Leads lines nodes a b) :=
  inferInstanceAs (Decidable (_ ∧ _ ∧ _))

/-- **The connections that a lookup finds** in a graph, given by the lines of the areas text and the node
table. -/
structure Graph.FindsPassages (g : Graph) (lines : List Areas.Line) (nodes : List Node) : Prop where
  /-- Nothing is found exactly if nothing leads from one to the other. -/
  eq_none_iff : ∀ a b, g.findConnection? a b = none ↔
    ¬Leads lines nodes a b ∧ ¬Leads lines nodes b a
  /-- Between two names of which one leads to the other only, the connection is unidirectional. -/
  oneWay : ∀ a b, a ≠ b → Leads lines nodes a b → ¬Leads lines nodes b a →
    ∃ kind, g.findConnection? a b = some ⟨a, b, true, kind⟩ ∧
      g.findConnection? b a = some ⟨a, b, true, kind⟩
  /-- Between two names that lead to each other it is not. -/
  twoWay : ∀ a b, a ≠ b → Leads lines nodes a b → Leads lines nodes b a →
    ∃ c, g.findConnection? a b = some c ∧ c.unidirectional = false ∧
      (c.start = a ∧ c.finish = b ∨ c.start = b ∧ c.finish = a)
  /-- From a name to itself it is unidirectional exactly if one entry leads there. -/
  loop : ∀ a, Leads lines nodes a a →
    ∃ c, g.findConnection? a a = some c ∧ c.start = a ∧ c.finish = a ∧
      (c.unidirectional = true ↔
        (Areas.passages .unrestricted (Areas.declarationsIn lines)).count (a, a) = 1)
  /-- It is a leaf exactly if it ends at a pickup or quest. -/
  kind_eq_leaf_iff : ∀ a b c, g.findConnection? a b = some c →
    (c.kind = .leaf ↔ ∃ n ∈ nodes, n.identifier = c.finish ∧ (n.kind = .pickup ∨ n.kind = .quest))

theorem Graph.findConnection?_comm (g : Graph) (a b : String) :
    g.findConnection? b a = g.findConnection? a b := by
  unfold Graph.findConnection?
  simp only [Connection.joins_comm _ b a]

namespace Pairing

/-! ## The first connection of a pair of names -/

/-- Whether an edge has these two ends, in either order. -/
def joinsEnds (a b : String) (e : Edge) : Bool :=
  (e.connection true).joins a b

theorem joinsEnds_iff {a b : String} {e : Edge} :
    joinsEnds a b e = true ↔ e.ends = (a, b) ∨ e.ends = (b, a) := by
  show (decide (e.start.identifier = a ∧ e.finish.identifier = b) ||
    decide (e.start.identifier = b ∧ e.finish.identifier = a)) = true ↔ _
  rw [Bool.or_eq_true, decide_eq_true_iff, decide_eq_true_iff, Edge.ends, Prod.mk.injEq,
    Prod.mk.injEq]

section Lookup

variable {nodes : List Node} (hindex : ∀ i (h : i < nodes.length), nodes[i].index = i)
  (hn : (nodes.map (·.identifier)).Nodup) {a b : String}

include hindex hn

/-- The edges between two names are a class. -/
theorem isClass_joinsEnds : IsClass (joinsEnds a b) (edges nodes (placed nodes)).reverse := by
  intro e he f hf hback
  have hends := (reverses_iff hindex hn (List.mem_reverse.mp he) (List.mem_reverse.mp hf)).mp hback
  rw [Bool.eq_iff_iff, joinsEnds_iff, joinsEnds_iff, hends]
  show e.ends.swap = (b, a).swap ∨ e.ends.swap = (a, b).swap ↔ _
  rw [Prod.swap_inj, Prod.swap_inj]
  exact or_comm

/-- A lookup finds what pairing makes first of the edges between the two names. -/
theorem findConnection?_ofNodes : (Graph.ofNodes nodes).findConnection? a b =
    (pair ((edges nodes (placed nodes)).reverse.filter (joinsEnds a b))).head? := by
  show (pair (edges nodes (placed nodes)).reverse).find? (·.joins a b) = _
  -- the first of all connections that fits is the first of those that fit
  rw [← List.head?_filter, filter_pair (fun _ _ => rfl) (isClass_joinsEnds hindex hn)]

/-- Nothing is found exactly if no edge joins the two names. -/
theorem findConnection?_eq_none_iff : (Graph.ofNodes nodes).findConnection? a b = none ↔
    ∀ e ∈ edges nodes (placed nodes), ¬joinsEnds a b e = true := by
  rw [findConnection?_ofNodes hindex hn]
  cases hf : (edges nodes (placed nodes)).reverse.filter (joinsEnds a b) with
  | nil =>
    rw [List.filter_eq_nil_iff] at hf
    simp only [pair_nil, List.head?_nil, true_iff]
    exact fun e he => hf e (List.mem_reverse.mpr he)
  | cons e rest =>
    have he : e ∈ (edges nodes (placed nodes)).reverse.filter (joinsEnds a b) := by
      rw [hf]
      exact List.mem_cons_self
    obtain ⟨he, hjoins⟩ := List.mem_filter.mp he
    rw [head?_pair]
    simp only [reduceCtorEq, false_iff]
    exact fun hnone => hnone e (List.mem_reverse.mp he) hjoins

/-- What is found is made of an edge, for both directions if another edge leads back. -/
theorem exists_of_findConnection?_eq_some {c : Connection}
    (h : (Graph.ofNodes nodes).findConnection? a b = some c) :
    ∃ e rest, (edges nodes (placed nodes)).reverse.filter (joinsEnds a b) = e :: rest ∧
      (∀ f, f ∈ e :: rest ↔ f ∈ edges nodes (placed nodes) ∧ joinsEnds a b f = true) ∧
      c = e.connection (!rest.any e.reverses) := by
  rw [findConnection?_ofNodes hindex hn] at h
  cases hf : (edges nodes (placed nodes)).reverse.filter (joinsEnds a b) with
  | nil =>
    rw [hf, pair_nil] at h
    cases h
  | cons e rest =>
    rw [hf, head?_pair] at h
    refine ⟨e, rest, rfl, ?_, (Option.some.inj h).symm⟩
    intro f
    rw [← hf, List.mem_filter, List.mem_reverse]

/-- If an edge joins two names, a connection is found between them that leads along an edge. -/
theorem exists_findConnection?_of_edge
    (h : (a, b) ∈ (edges nodes (placed nodes)).map Edge.ends ∨
      (b, a) ∈ (edges nodes (placed nodes)).map Edge.ends) :
    ∃ c, (Graph.ofNodes nodes).findConnection? a b = some c ∧
      (c.start, c.finish) ∈ (edges nodes (placed nodes)).map Edge.ends ∧
      (c.start = a ∧ c.finish = b ∨ c.start = b ∧ c.finish = a) := by
  cases hc : (Graph.ofNodes nodes).findConnection? a b with
  | none =>
    rw [findConnection?_eq_none_iff hindex hn] at hc
    rcases h with h | h
    · obtain ⟨e, he, hends⟩ := List.mem_map.mp h
      exact absurd (joinsEnds_iff.mpr (Or.inl hends)) (hc e he)
    · obtain ⟨e, he, hends⟩ := List.mem_map.mp h
      exact absurd (joinsEnds_iff.mpr (Or.inr hends)) (hc e he)
  | some c =>
    obtain ⟨e, rest, -, hmem, rfl⟩ := exists_of_findConnection?_eq_some hindex hn hc
    obtain ⟨he, hjoins⟩ := (hmem e).mp List.mem_cons_self
    refine ⟨_, rfl, List.mem_map_of_mem he, ?_⟩
    rcases joinsEnds_iff.mp hjoins with hends | hends
    · exact Or.inl (Prod.mk.inj hends)
    · exact Or.inr (Prod.mk.inj hends)

/-- Between different names, an edge leads back along what is found exactly if one leads from its end
to its start. -/
theorem unidirectional_iff_of_ne (hab : a ≠ b) {c : Connection}
    (h : (Graph.ofNodes nodes).findConnection? a b = some c) :
    c.unidirectional = true ↔
      (c.finish, c.start) ∉ (edges nodes (placed nodes)).map Edge.ends := by
  obtain ⟨e, rest, -, hmem, rfl⟩ := exists_of_findConnection?_eq_some hindex hn h
  obtain ⟨he, hjoins⟩ := (hmem e).mp List.mem_cons_self
  show (!rest.any e.reverses) = true ↔ e.ends.swap ∉ _
  rw [Bool.not_eq_true', Bool.eq_false_iff, not_iff_not, List.any_eq_true]
  constructor
  · rintro ⟨f, hfrest, hback⟩
    have hfedge := ((hmem f).mp (List.mem_cons_of_mem _ hfrest)).1
    exact List.mem_map.mpr ⟨f, hfedge, (reverses_iff hindex hn he hfedge).mp hback⟩
  · intro hback
    obtain ⟨f, hfedge, hends⟩ := List.mem_map.mp hback
    have hreverses : e.reverses f = true := (reverses_iff hindex hn he hfedge).mpr hends
    have hjoins' : joinsEnds a b f = true := by
      rw [isClass_joinsEnds hindex hn e (List.mem_reverse.mpr he) f (List.mem_reverse.mpr hfedge)
        hreverses]
      exact hjoins
    -- the edge itself does not lead back along itself, so the one that does is behind it
    have hne : f ≠ e := by
      rintro rfl
      rcases joinsEnds_iff.mp hjoins with hends' | hends'
      · rw [hends', Prod.swap_prod_mk, Prod.mk.injEq] at hends
        exact hab hends.1
      · rw [hends', Prod.swap_prod_mk, Prod.mk.injEq] at hends
        exact hab hends.2
    rcases List.mem_cons.mp ((hmem f).mpr ⟨hfedge, hjoins'⟩) with rfl | hfrest
    · exact absurd rfl hne
    · exact ⟨f, hfrest, hreverses⟩

/-- From a name to itself every edge leads back along every other, so one alone makes a
unidirectional connection. -/
theorem unidirectional_iff_of_loop {c : Connection}
    (h : (Graph.ofNodes nodes).findConnection? a a = some c) :
    c.unidirectional = true ↔
      ((edges nodes (placed nodes)).map Edge.ends).count (a, a) = 1 := by
  obtain ⟨e, rest, hf, hmem, rfl⟩ := exists_of_findConnection?_eq_some hindex hn h
  have hends : ∀ f, joinsEnds a a f = true ↔ f.ends = (a, a) := by
    intro f
    rw [joinsEnds_iff, or_self]
  -- the edges that pairing sees are those that the count is about
  have hcount : ((edges nodes (placed nodes)).map Edge.ends).count (a, a) = (e :: rest).length := by
    rw [← hf, List.count_eq_countP, List.countP_map, ← List.countP_eq_length_filter,
      List.countP_reverse]
    refine List.countP_congr ?_
    intro f _
    rw [hends, Function.comp_apply, beq_iff_eq]
  obtain ⟨he, hjoins⟩ := (hmem e).mp List.mem_cons_self
  show (!rest.any e.reverses) = true ↔ _
  rw [hcount, Bool.not_eq_true', Bool.eq_false_iff, List.length_cons, Nat.add_eq_right,
    List.length_eq_zero_iff]
  constructor
  · intro hnone
    rw [List.eq_nil_iff_forall_not_mem]
    intro f hfrest
    obtain ⟨hfedge, hfjoins⟩ := (hmem f).mp (List.mem_cons_of_mem _ hfrest)
    refine hnone (List.any_eq_true.mpr ⟨f, hfrest, (reverses_iff hindex hn he hfedge).mpr ?_⟩)
    rw [(hends f).mp hfjoins, (hends e).mp hjoins, Prod.swap_prod_mk]
  · rintro rfl
    exact Bool.false_ne_true

end Lookup

end Pairing

open Pairing

/-- An edge makes a leaf exactly if it does not lead to an anchor. -/
theorem Edge.kind_eq_leaf_iff {e : Edge} : e.kind = .leaf ↔ e.finish.kind ≠ .anchor := by
  unfold Edge.kind
  by_cases h : e.finish.kind = .anchor
  · rw [if_pos h]
    exact iff_of_false ConnectionKind.noConfusion fun hne => hne h
  · rw [if_neg h]
    exact iff_of_true rfl h

/-- A connection that is found is a leaf exactly if it ends at a node that is one. -/
theorem kind_eq_leaf_iff_of_isExact {lines : List Areas.Line} {locations : List Location}
    {setting : Difficulty} {nodes : List Node}
    (h : NodeTable.IsExact lines locations setting nodes) {a b : String} {c : Connection}
    (hc : (Graph.ofNodes nodes).findConnection? a b = some c) :
    c.kind = .leaf ↔
      ∃ n ∈ nodes, n.identifier = c.finish ∧ (n.kind = .pickup ∨ n.kind = .quest) := by
  obtain ⟨e, rest, -, hedges, rfl⟩ := exists_of_findConnection?_eq_some h.index_eq h.nodup hc
  obtain ⟨-, -, hfinish⟩ := mem_edges ((hedges e).mp List.mem_cons_self).1
  obtain ⟨hmem, hplaced⟩ := List.mem_filter.mp hfinish
  show e.kind = .leaf ↔ ∃ n ∈ nodes, n.identifier = e.finish.identifier ∧ _
  rw [Edge.kind_eq_leaf_iff]
  constructor
  · intro hkind
    refine ⟨e.finish, hmem, rfl, ?_⟩
    cases hk : e.finish.kind with
    | anchor => exact absurd hk hkind
    | pickup => exact Or.inl rfl
    | quest => exact Or.inr rfl
    | state =>
      -- states have no place, so no edge ends at one
      rw [h.state_position e.finish hmem hk] at hplaced
      cases hplaced
  · rintro ⟨n, hnode, hname, hkind⟩
    rw [← List.inj_on_of_nodup_map h.nodup hnode hmem hname]
    exact NodeTable.ne_anchor_of_placed hkind

/-- One name leads to another exactly if an edge of the table does. -/
theorem mem_map_ends_iff_leads {lines : List Areas.Line} {register : NodeTable.Register}
    (hlink : NodeTable.Linkable register .unrestricted (Areas.declarationsIn lines))
    {nodes : List Node} (hnodes : nodes =
      NodeTable.tableOf register.locations .unrestricted (Areas.declarationsIn lines))
    (a b : String) :
    (a, b) ∈ (edges nodes (placed nodes)).map Edge.ends ↔ Leads lines nodes a b := by
  rw [map_ends_edges hlink hnodes, List.mem_filter, decide_eq_true_iff]
  rfl

/-- The graph of a table that is made of lines. -/
theorem Graph.findsPassages_ofNodes {lines : List Areas.Line} {register : NodeTable.Register}
    (hgrammar : Areas.Grammar lines) (hrows : (register.locations.map (·.identifier)).Nodup)
    (hlink : NodeTable.Linkable register .unrestricted (Areas.declarationsIn lines))
    {nodes : List Node} (hnodes : nodes =
      NodeTable.tableOf register.locations .unrestricted (Areas.declarationsIn lines)) :
    (Graph.ofNodes nodes).FindsPassages lines nodes := by
  have hexact : NodeTable.IsExact lines register.locations .unrestricted nodes :=
    hnodes ▸ NodeTable.tableOf_isExact hgrammar hrows hlink
  have hindex := hexact.index_eq
  have hn := hexact.nodup
  have hleads := mem_map_ends_iff_leads hlink hnodes
  have hnone : ∀ a b, (Graph.ofNodes nodes).findConnection? a b = none ↔
      ¬Leads lines nodes a b ∧ ¬Leads lines nodes b a := by
    intro a b
    rw [findConnection?_eq_none_iff hindex hn, ← hleads, ← hleads]
    simp only [joinsEnds_iff, List.mem_map, not_or, not_exists, not_and]
    exact ⟨fun h => ⟨fun e he => (h e he).1, fun e he => (h e he).2⟩,
      fun h e he => ⟨h.1 e he, h.2 e he⟩⟩
  have hsome : ∀ a b, Leads lines nodes a b ∨ Leads lines nodes b a →
      ∃ c, (Graph.ofNodes nodes).findConnection? a b = some c ∧ Leads lines nodes c.start c.finish ∧
        (c.start = a ∧ c.finish = b ∨ c.start = b ∧ c.finish = a) := by
    intro a b h
    rw [← hleads, ← hleads] at h
    obtain ⟨c, hc, hedge, hnames⟩ := exists_findConnection?_of_edge hindex hn h
    exact ⟨c, hc, (hleads _ _).mp hedge, hnames⟩
  refine
    { eq_none_iff := hnone
      oneWay := ?oneWay
      twoWay := ?twoWay
      loop := ?loop
      kind_eq_leaf_iff := fun a b c => kind_eq_leaf_iff_of_isExact hexact }
  case oneWay =>
    intro a b hab hthere hback
    obtain ⟨c, hc, hleadsc, hnames⟩ := hsome a b (Or.inl hthere)
    have huni := unidirectional_iff_of_ne hindex hn hab hc
    -- what is found leads along an edge, and there is none from the second name to the first
    obtain ⟨start, finish, unidirectional, kind⟩ := c
    rcases hnames with ⟨rfl, rfl⟩ | ⟨rfl, rfl⟩
    · rw [hleads] at huni
      obtain rfl : unidirectional = true := huni.mpr hback
      exact ⟨kind, hc, (Graph.findConnection?_comm _ _ _).trans hc⟩
    · exact absurd hleadsc hback
  case twoWay =>
    intro a b hab hthere hback
    obtain ⟨c, hc, hleadsc, hnames⟩ := hsome a b (Or.inl hthere)
    have huni := unidirectional_iff_of_ne hindex hn hab hc
    refine ⟨c, hc, ?_, hnames⟩
    rw [hleads] at huni
    rw [Bool.eq_false_iff, ne_eq, huni, not_not]
    rcases hnames with ⟨hstart, hfinish⟩ | ⟨hstart, hfinish⟩
    · rw [hstart, hfinish]
      exact hback
    · rw [hstart, hfinish]
      exact hthere
  case loop =>
    intro a hloop
    obtain ⟨c, hc, -, hnames⟩ := hsome a a (Or.inl hloop)
    obtain ⟨hstart, hfinish⟩ := or_self_iff.mp hnames
    refine ⟨c, hc, hstart, hfinish, ?_⟩
    rw [unidirectional_iff_of_loop hindex hn hc, map_ends_edges hlink hnodes, List.count_filter]
    exact decide_eq_true hloop.2

/-- **A lookup in a graph finds what the surviving entries of its areas text say.** -/
theorem Graph.findsPassages_of_build {areas locations : String} {g : Graph}
    (h : Graph.build areas locations = .ok g) :
    ∃ logic, Logic.readUnrestricted areas locations = .ok logic ∧
      g.FindsPassages (Areas.logicalLines areas.toList) logic.nodes := by
  obtain ⟨logic, hlogic, rfl⟩ := Except.map_eq_ok_iff.mp h
  obtain ⟨hrows, -, hgrammar, hds, hlink, hnodes⟩ := Logic.read_eq_ok_iff.mp hlogic
  rw [hds] at hlink hnodes
  exact ⟨logic, hlogic,
    Graph.findsPassages_ofNodes hgrammar (readLocations_nodup hrows) hlink hnodes⟩

/-- Two entries that lead there, one that leads back, and one that leads nowhere else. -/
def Areas.thereTwice : String :=
  "anchor A at 1, 2:\n  conn B: free\n  conn B: free\n  conn A: free\n" ++
    "anchor B at 3, 4:\n  conn A: free\n"

theorem Graph.findsPassages_of_build_thereTwice :
    ∃ (g : Graph) (logic : Logic), Graph.build Areas.thereTwice "" = .ok g ∧
      Logic.readUnrestricted Areas.thereTwice "" = .ok logic ∧
      g.connections.map (fun c => (c.start, c.finish, c.unidirectional))
        = [("B", "A", false), ("A", "A", true), ("A", "B", true)] ∧
      g.FindsPassages (Areas.logicalLines Areas.thereTwice.toList) logic.nodes := by
  have hbuild : (Graph.build Areas.thereTwice "").map
      (·.connections.map fun c => (c.start, c.finish, c.unidirectional))
      = .ok [("B", "A", false), ("A", "A", true), ("A", "B", true)] := by
    decide +kernel
  obtain ⟨g, hg, hconnections⟩ := Except.map_eq_ok_iff.mp hbuild
  obtain ⟨logic, hlogic, hfinds⟩ := Graph.findsPassages_of_build hg
  exact ⟨g, logic, hg, hlogic, hconnections, hfinds⟩

end AreaAtlas
