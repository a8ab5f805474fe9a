import AreaAtlas.Command.Response
import AreaAtlas.Proofs.Graph.WellFormed
import AreaAtlas.Proofs.Place.Passage

/-!
# Telling where a connection is declared

A connection may be stored against the direction that is asked for, its kind decides the keyword that is
searched for, and the search looks at the text instead of what was read.  That the command nevertheless
tells a place exactly for passages, and the place of the direction that is asked for, rests on
`connectionPlace?_eq`, which no longer speaks of connections.
-/

namespace AreaAtlas

open Command

/-! ## Places of connections -/

/-- The place of the passage from the one name to the other. -/
def Graph.passagePlace? (g : Graph) (areas a b : String) : Option Place :=
  Place.ofPassage? (g.kindTo b) a b areas.toList

/-- A connection for one direction is found where the entry from its start to its end is. -/
theorem Place.ofConnection?_of_unidirectional {c : Connection} (h : c.unidirectional = true)
    {areas : List Char} {place : Place}
    (hplace : ofPassage? c.kind c.start c.finish areas = some place) (inverse : Bool) :
    ofConnection? c areas inverse = some place := by
  obtain ⟨offset, hfind, rfl⟩ := Option.map_eq_some_iff.mp hplace
  unfold ofConnection? directions
  rw [if_pos h, List.findSome?_cons]
  simp only [hfind, Option.map_some]

/-- One for both directions is found where the entry in the direction asked for is. -/
theorem Place.ofConnection?_of_both {c : Connection} (h : c.unidirectional = false)
    (areas : List Char) (inverse : Bool) : ofConnection? c areas inverse =
      if inverse then ofPassage? c.kind c.finish c.start areas
      else ofPassage? c.kind c.start c.finish areas := by
  have hne : ¬c.unidirectional = true := Bool.eq_false_iff.mp h
  unfold ofConnection? directions ofPassage?
  rw [if_neg hne]
  cases inverse with
  | true => exact congrArg _ List.findSome?_singleton
  | false => exact congrArg _ List.findSome?_singleton

theorem connectionPlace?_of_findConnection? {g : Graph} {a b : String} {c : Connection}
    (h : g.findConnection? a b = some c) (hway : isWrongWay c a = false) (areas : String)
    (inverse : Bool) : connectionPlace? g areas a b inverse =
      Place.ofConnection? c areas.toList (inverse != (c.start != a)) := by
  unfold connectionPlace?
  rw [h, Option.bind_some, hway]
  rfl

theorem isWrongWay_of_start_eq {c : Connection} {a : String} (h : c.start = a) :
    isWrongWay c a = false := by
  simp [isWrongWay, h]

section Lookup

variable {areas locations : String} {logic : Logic}
  (hspaced : isPlainlySpaced areas.toList = true)
  (hlogic : Logic.readUnrestricted areas locations = .ok logic)

include hlogic

theorem findsPassages_of_readUnrestricted :
    (Graph.ofNodes logic.nodes).FindsPassages (Areas.logicalLines areas.toList) logic.nodes := by
  obtain ⟨hrows, -, hgrammar, hds, hlink, hnodes⟩ := Logic.read_eq_ok_iff.mp hlogic
  rw [hds] at hlink hnodes
  exact Graph.findsPassages_ofNodes hgrammar (readLocations_nodup hrows) hlink hnodes

/-- Surviving entries that lead to a placed name have a keyword of the kind of its connections. -/
theorem keyword_mem_entryKeywords {name : String} (hplaced : name ∈ placedNames logic.nodes) :
    ∀ e ∈ Areas.survivorsIn .unrestricted (Areas.logicalLines areas.toList), e.target = name →
      e.kind.keyword.toList ∈ Place.entryKeywords ((Graph.ofNodes logic.nodes).kindTo name) := by
  have hexact := isExact_of_readUnrestricted hlogic
  obtain ⟨-, -, hgrammar, hds, hlink, hnodes⟩ := Logic.read_eq_ok_iff.mp hlogic
  intro e he htarget
  obtain ⟨n, hn, rfl⟩ := List.mem_map.mp hplaced
  have hkind : n.kind = e.kind := by
    rw [Areas.survivorsIn_eq hgrammar, ← hds] at he
    have hmem := Pairing.mem_of_mem_placed hn
    rw [hnodes] at hmem
    exact NodeTable.kind_eq_of_mem_tableOf hlink hmem he htarget
  have hleaf := identifier_mem_leaves_iff hexact.nodup hn
  have hplacedKind := placed_of_isExact hexact hn
  rw [hkind] at hleaf hplacedKind
  unfold Graph.kindTo
  cases hk : e.kind with
  | anchor =>
    rw [if_neg fun h => hleaf.mp h hk]
    exact List.mem_cons_self
  | pickup =>
    rw [if_pos (hleaf.mpr (hplacedKind.mpr (Or.inl hk)))]
    exact List.mem_cons_self
  | quest =>
    rw [if_pos (hleaf.mpr (hplacedKind.mpr (Or.inr hk)))]
    exact List.mem_cons_of_mem _ List.mem_cons_self
  | state =>
    -- states have no place
    rw [hk] at hplacedKind
    rcases hplacedKind.mp NodeKind.noConfusion with h | h
    · cases h
    · cases h

/-- A connection that is looked up is of the kind of its end, and of that of its start too if it leads
back. -/
theorem kind_eq_kindTo_of_findConnection? {a b : String} {c : Connection}
    (hc : (Graph.ofNodes logic.nodes).findConnection? a b = some c) :
    c.kind = (Graph.ofNodes logic.nodes).kindTo c.finish ∧
      (c.unidirectional = false → c.kind = (Graph.ofNodes logic.nodes).kindTo c.start) :=
  (Graph.isWellFormed_ofNodes (isExact_of_readUnrestricted hlogic)).kind_eq_kindTo
    (List.mem_of_find?_eq_some hc)

/-- Where no passage leads, no place is found: a connection leads only the other way, if there is one. -/
theorem connectionPlace?_eq_none {a b : String}
    (h : ¬Leads (Areas.logicalLines areas.toList) logic.nodes a b) (inverse : Bool) :
    connectionPlace? (Graph.ofNodes logic.nodes) areas a b inverse = none := by
  have hfinds := findsPassages_of_readUnrestricted hlogic
  unfold connectionPlace?
  by_cases hback : Leads (Areas.logicalLines areas.toList) logic.nodes b a
  · have hne : b ≠ a := by
      rintro rfl
      exact h hback
    obtain ⟨kind, -, hc⟩ := hfinds.oneWay b a hne hback h
    have hway : isWrongWay ⟨b, a, true, kind⟩ a = true := bne_iff_ne.mpr hne
    rw [hc, Option.bind_some, if_pos hway]
  · rw [(hfinds.eq_none_iff a b).mpr ⟨h, hback⟩]
    rfl

/-- Of two passages that lead there and back the place of the one asked for is found. -/
theorem connectionPlace?_of_twoWay {a b : String} (hne : a ≠ b)
    (h : Leads (Areas.logicalLines areas.toList) logic.nodes a b)
    (hback : Leads (Areas.logicalLines areas.toList) logic.nodes b a) (inverse : Bool) :
    connectionPlace? (Graph.ofNodes logic.nodes) areas a b inverse =
      if inverse then (Graph.ofNodes logic.nodes).passagePlace? areas b a
      else (Graph.ofNodes logic.nodes).passagePlace? areas a b := by
  obtain ⟨c, hc, hboth, hends⟩ := (findsPassages_of_readUnrestricted hlogic).twoWay a b hne h hback
  obtain ⟨hfinish, hstart⟩ := kind_eq_kindTo_of_findConnection? hlogic hc
  have hstart := hstart hboth
  have hway : isWrongWay c a = false := by rw [isWrongWay, hboth, Bool.false_and]
  rw [connectionPlace?_of_findConnection? hc hway, Place.ofConnection?_of_both hboth]
  unfold Graph.passagePlace?
  rcases hends with ⟨rfl, rfl⟩ | ⟨rfl, rfl⟩
  · rw [bne_self_eq_false, Bool.bne_false, ← hstart, ← hfinish]
  · -- the connection is stored against the direction that is asked for
    have hagainst : (c.start != c.finish) = true := bne_iff_ne.mpr hne.symm
    rw [hagainst, Bool.bne_true, ← hstart, ← hfinish]
    cases inverse with
    | true => rfl
    | false => rfl

include hspaced

/-- **A passage has a place**, in the body of the anchor that it starts at. -/
theorem exists_passagePlace?_of_leads {a b : String}
    (h : Leads (Areas.logicalLines areas.toList) logic.nodes a b) :
    ∃ place, (Graph.ofNodes logic.nodes).passagePlace? areas a b = some place ∧
      place.InBody (Areas.logicalLines areas.toList) a := by
  obtain ⟨-, -, hgrammar, -⟩ := Logic.read_eq_ok_iff.mp hlogic
  obtain ⟨p, hp, hdeclares, before, line, behind, hbody, -, -, hplace, hpos⟩ :=
    Place.exists_ofPassage?_eq_some hspaced hgrammar (names_of_readUnrestricted hlogic) h.1
      (keyword_mem_entryKeywords hlogic h.2.2)
  refine ⟨_, hplace, p, hp, hdeclares, line, ?_, ?_⟩
  · rw [hbody]
    simp
  · exact (Nat.sub_add_cancel hpos).symm

/-- Of a passage that leads there only the place is found whichever way is asked for. -/
theorem connectionPlace?_of_oneWay {a b : String}
    (h : Leads (Areas.logicalLines areas.toList) logic.nodes a b)
    (hback : ¬Leads (Areas.logicalLines areas.toList) logic.nodes b a) (inverse : Bool) :
    connectionPlace? (Graph.ofNodes logic.nodes) areas a b inverse =
      (Graph.ofNodes logic.nodes).passagePlace? areas a b := by
  have hne : a ≠ b := by
    rintro rfl
    exact hback h
  obtain ⟨kind, hc, -⟩ := (findsPassages_of_readUnrestricted hlogic).oneWay a b hne h hback
  have hkind : kind = (Graph.ofNodes logic.nodes).kindTo b :=
    (kind_eq_kindTo_of_findConnection? hlogic hc).1
  obtain ⟨place, hplace, -⟩ := exists_passagePlace?_of_leads hspaced hlogic h
  rw [connectionPlace?_of_findConnection? hc (isWrongWay_of_start_eq rfl), hplace]
  refine Place.ofConnection?_of_unidirectional rfl ?_ _
  rw [hkind]
  exact hplace

/-- So it is from a name to itself. -/
theorem connectionPlace?_of_loop {a : String}
    (h : Leads (Areas.logicalLines areas.toList) logic.nodes a a) (inverse : Bool) :
    connectionPlace? (Graph.ofNodes logic.nodes) areas a a inverse =
      (Graph.ofNodes logic.nodes).passagePlace? areas a a := by
  obtain ⟨c, hc, rfl, hfinish, -⟩ := (findsPassages_of_readUnrestricted hlogic).loop a h
  have hkind := (kind_eq_kindTo_of_findConnection? hlogic hc).1
  obtain ⟨place, hplace, -⟩ := exists_passagePlace?_of_leads hspaced hlogic h
  have hentry : Place.ofPassage? c.kind c.start c.finish areas.toList = some place := by
    rw [hkind, hfinish]
    exact hplace
  rw [connectionPlace?_of_findConnection? hc (isWrongWay_of_start_eq rfl), hplace]
  cases hu : c.unidirectional with
  | true => exact Place.ofConnection?_of_unidirectional hu hentry _
  | false =>
    -- both directions are the same
    rw [hfinish] at hentry
    rw [Place.ofConnection?_of_both hu, hfinish, ite_self, hentry]

/-- **Looking up a connection in closed form**: nothing is found where no passage leads, and otherwise the
passage asked for, which is the one back only if there is one. -/
theorem connectionPlace?_eq (a b : String) (inverse : Bool) :
    connectionPlace? (Graph.ofNodes logic.nodes) areas a b inverse =
      if Leads (Areas.logicalLines areas.toList) logic.nodes a b then
        if inverse ∧ Leads (Areas.logicalLines areas.toList) logic.nodes b a then
          (Graph.ofNodes logic.nodes).passagePlace? areas b a
        else (Graph.ofNodes logic.nodes).passagePlace? areas a b
      else none := by
  by_cases h : Leads (Areas.logicalLines areas.toList) logic.nodes a b
  · rw [if_pos h]
    by_cases hback : Leads (Areas.logicalLines areas.toList) logic.nodes b a
    · simp only [hback, and_true]
      by_cases hne : a = b
      · subst hne
        rw [connectionPlace?_of_loop hspaced hlogic h, ite_self]
      · exact connectionPlace?_of_twoWay hlogic hne h hback inverse
    · rw [if_neg fun hboth => hback hboth.2]
      exact connectionPlace?_of_oneWay hspaced hlogic h hback inverse
  · rw [if_neg h]
    exact connectionPlace?_eq_none hlogic h inverse

/-- Unless the way back is asked for, what is found is in the body of the first anchor. -/
theorem inBody_of_connectionPlace? {a b : String} {place : Place}
    (h : connectionPlace? (Graph.ofNodes logic.nodes) areas a b false = some place) :
    place.InBody (Areas.logicalLines areas.toList) a := by
  by_cases hleads : Leads (Areas.logicalLines areas.toList) logic.nodes a b
  · obtain ⟨place', hplace', hbody⟩ := exists_passagePlace?_of_leads hspaced hlogic hleads
    have hway : ¬(false = true ∧ Leads (Areas.logicalLines areas.toList) logic.nodes b a) :=
      fun hback => Bool.false_ne_true hback.1
    rw [connectionPlace?_eq hspaced hlogic, if_pos hleads, if_neg hway, hplace'] at h
    obtain rfl := Option.some.inj h
    exact hbody
  · rw [connectionPlace?_eq_none hlogic hleads] at h
    cases h

theorem exists_connectionPlace?_of_leads {a b : String}
    (h : Leads (Areas.logicalLines areas.toList) logic.nodes a b) (inverse : Bool) :
    ∃ place, connectionPlace? (Graph.ofNodes logic.nodes) areas a b inverse = some place := by
  rw [connectionPlace?_eq hspaced hlogic, if_pos h]
  split
  · next hboth =>
    obtain ⟨place, hplace, -⟩ := exists_passagePlace?_of_leads hspaced hlogic hboth.2
    exact ⟨place, hplace⟩
  · obtain ⟨place, hplace, -⟩ := exists_passagePlace?_of_leads hspaced hlogic h
    exact ⟨place, hplace⟩

end Lookup

/-! ## The command -/

namespace Command

/-- What a response writes to the standard output. -/
def Response.printed (r : Response) : List String :=
  r.actions.filterMap fun
    | .print text => some text
    | _ => none

/-- Logging first does not change what is written. -/
theorem Response.printed_after {actions : List Action}
    (h : ∀ action ∈ actions, ∃ record, action = .log record) (r : Response) :
    (r.after actions).printed = r.printed := by
  unfold printed after
  rw [List.filterMap_append, List.append_left_eq_self, List.filterMap_eq_nil_iff]
  intro action haction
  obtain ⟨record, rfl⟩ := h action haction
  rfl

theorem exists_eq_log_of_mem_wrongWayActions {g : Graph} {start finish : String} :
    ∀ action ∈ wrongWayActions g start finish, ∃ record, action = .log record := by
  intro action haction
  unfold wrongWayActions at haction
  split at haction
  · cases haction
  · split at haction
    · exact ⟨_, List.mem_singleton.mp haction⟩
    · cases haction

/-- Asked for a connection, the command tells the place that looking it up gives. -/
theorem useSources_of_locateConnection {sources : Sources} {g : Graph}
    (hbuild : Graph.build sources.areas sources.locations = .ok g) {a : Options.Arguments}
    {start finish : String} (hlocate : a.locate = "")
    (hconnection : a.locateConnection = some (start, finish)) (store : Files.Store)
    {answer : Response} (hanswer : answer = reportPlace (start ++ " -> " ++ finish)
      (connectionPlace? g sources.areas start finish a.inverse)) :
    (useSources store sources a).printed = answer.printed ∧
      (useSources store sources a).ending = answer.ending := by
  have huse : useSources store sources a =
      (answer.after (wrongWayActions g start finish)).after
        ((buildRecords sources.areas sources.locations).map Action.log) := by
    have hempty : ¬(!a.locate.isEmpty) = true := by
      rw [hlocate]
      decide
    unfold useSources useGraph locateConnection
    rw [hbuild, hanswer]
    simp only [if_neg hempty, hconnection]
  rw [huse, Response.printed_after ?records, Response.printed_after exists_eq_log_of_mem_wrongWayActions]
  · exact ⟨rfl, rfl⟩
  case records =>
    intro action haction
    obtain ⟨record, -, rfl⟩ := List.mem_map.mp haction
    exact ⟨record, rfl⟩

/-- **What the command tells of connections** in texts that a graph is built from. -/
structure TellsPassages (sources : Sources) (g : Graph) (nodes : List Node) : Prop where
  /-- Asked for a passage between placed nodes, in either way, it tells a place and ends well. -/
  told : ∀ store (a : Options.Arguments) start finish, a.locate = "" →
    a.locateConnection = some (start, finish) →
    Leads (Areas.logicalLines sources.areas.toList) nodes start finish →
    ∃ place, connectionPlace? g sources.areas start finish a.inverse = some place ∧
      (useSources store sources a).printed = [start ++ " -> " ++ finish ++ ": line " ++
        toString (place.line + 1) ++ ", column " ++ toString (place.character + 1) ++ "\n"] ∧
      (useSources store sources a).ending = .exit 0
  /-- Asked for anything else it tells nothing, and ends with an error. -/
  untold : ∀ store (a : Options.Arguments) start finish, a.locate = "" →
    a.locateConnection = some (start, finish) →
    ¬Leads (Areas.logicalLines sources.areas.toList) nodes start finish →
    connectionPlace? g sources.areas start finish a.inverse = none ∧
      (useSources store sources a).printed = [] ∧ (useSources store sources a).ending = .exit 1
  /-- The place is in the body of the anchor that is asked for, unless the way back is. -/
  inBody : ∀ start finish place,
    connectionPlace? g sources.areas start finish false = some place →
    place.InBody (Areas.logicalLines sources.areas.toList) start
  /-- Where no passage leads back, the way back is the way there. -/
  inverse_of_oneWay : ∀ start finish,
    ¬Leads (Areas.logicalLines sources.areas.toList) nodes finish start →
    connectionPlace? g sources.areas start finish true =
      connectionPlace? g sources.areas start finish false
  /-- Where entries lead there and back, it is the way there with the names exchanged. -/
  inverse_of_twoWay : ∀ start finish,
    (start, finish) ∈ Areas.passages .unrestricted
      (Areas.declarationsIn (Areas.logicalLines sources.areas.toList)) →
    (finish, start) ∈ Areas.passages .unrestricted
      (Areas.declarationsIn (Areas.logicalLines sources.areas.toList)) →
    connectionPlace? g sources.areas start finish true =
      connectionPlace? g sources.areas finish start false

/-- **The command tells where connections are declared exactly**, in texts whose white space is plain. -/
theorem tellsPassages_of_build {sources : Sources} {g : Graph}
    (hspaced : isPlainlySpaced sources.areas.toList = true)
    (h : Graph.build sources.areas sources.locations = .ok g) :
    ∃ logic, Logic.readUnrestricted sources.areas sources.locations = .ok logic ∧
      TellsPassages sources g logic.nodes := by
  obtain ⟨logic, hlogic, rfl⟩ := Except.map_eq_ok_iff.mp h
  refine ⟨logic, hlogic, ?_⟩
  refine
    { told := ?told
      untold := ?untold
      inBody := fun _ _ _ hplace => inBody_of_connectionPlace? hspaced hlogic hplace
      inverse_of_oneWay := ?inverse_of_oneWay
      inverse_of_twoWay := ?inverse_of_twoWay }
  case told =>
    intro store a start finish hlocate hconnection hleads
    obtain ⟨place, hplace⟩ := exists_connectionPlace?_of_leads hspaced hlogic hleads a.inverse
    obtain ⟨hprinted, hending⟩ := useSources_of_locateConnection h hlocate hconnection store rfl
    rw [hplace] at hprinted hending
    exact ⟨place, hplace, hprinted, hending⟩
  case untold =>
    intro store a start finish hlocate hconnection hleads
    have hnone := connectionPlace?_eq_none hlogic hleads a.inverse
    obtain ⟨hprinted, hending⟩ := useSources_of_locateConnection h hlocate hconnection store rfl
    rw [hnone] at hprinted hending
    exact ⟨hnone, hprinted, hending⟩
  case inverse_of_oneWay =>
    intro start finish hback
    rw [connectionPlace?_eq hspaced hlogic, connectionPlace?_eq hspaced hlogic]
    simp only [hback, and_false]
  case inverse_of_twoWay =>
    intro start finish hthere hback
    -- both ends have a place, or neither passage counts
    have hleads : Leads (Areas.logicalLines sources.areas.toList) logic.nodes finish start ↔
        Leads (Areas.logicalLines sources.areas.toList) logic.nodes start finish :=
      ⟨fun h => ⟨hthere, h.2.2, h.2.1⟩, fun h => ⟨hback, h.2.2, h.2.1⟩⟩
    rw [connectionPlace?_eq hspaced hlogic, connectionPlace?_eq hspaced hlogic]
    simp only [hleads, true_and, Bool.false_eq_true, false_and, if_false]
    split
    · rfl
    · rfl

end Command

/-- Two anchors that lead to each other, on lines that end in different ways, and a pickup. -/
def Sources.mixedLineEnds : Sources where
  areas := "anchor A at 1, 2:\r\n  conn\tB: free # there\r\n  pickup Gem: free\r\n" ++
    "anchor B at 3, 4:\n  conn A: free\n"
  locations := "Gem,Zone,,,5,6\n"
  areasPath := "areas"
  locationsPath := "locations"

theorem Command.tellsPassages_of_build_mixedLineEnds :
    ∃ (g : Graph) (logic : Logic),
      isPlainlySpaced Sources.mixedLineEnds.areas.toList = true ∧
      Graph.build Sources.mixedLineEnds.areas Sources.mixedLineEnds.locations = .ok g ∧
      Logic.readUnrestricted Sources.mixedLineEnds.areas Sources.mixedLineEnds.locations = .ok logic ∧
      [connectionPlace? g Sources.mixedLineEnds.areas "A" "B" false,
        connectionPlace? g Sources.mixedLineEnds.areas "A" "B" true,
        connectionPlace? g Sources.mixedLineEnds.areas "A" "Gem" true,
        connectionPlace? g Sources.mixedLineEnds.areas "Gem" "A" true]
        = [some ⟨1, 2⟩, some ⟨4, 2⟩, some ⟨2, 2⟩, none] ∧
      TellsPassages Sources.mixedLineEnds g logic.nodes := by
  have hspaced : isPlainlySpaced Sources.mixedLineEnds.areas.toList = true := by decide +kernel
  have hbuild : (Graph.build Sources.mixedLineEnds.areas Sources.mixedLineEnds.locations).map (fun g =>
      [connectionPlace? g Sources.mixedLineEnds.areas "A" "B" false,
        connectionPlace? g Sources.mixedLineEnds.areas "A" "B" true,
        connectionPlace? g Sources.mixedLineEnds.areas "A" "Gem" true,
        connectionPlace? g Sources.mixedLineEnds.areas "Gem" "A" true])
      = .ok [some ⟨1, 2⟩, some ⟨4, 2⟩, some ⟨2, 2⟩, none] := by
    decide +kernel
  obtain ⟨g, hg, hplaces⟩ := Except.map_eq_ok_iff.mp hbuild
  obtain ⟨logic, hlogic, htells⟩ := Command.tellsPassages_of_build hspaced hg
  exact ⟨g, logic, hspaced, hg, hlogic, hplaces, htells⟩

end AreaAtlas
