import AreaAtlas.Proofs.Command.Locating
import AreaAtlas.Proofs.Place.Anchor

/-!
# Entries that are shadowed

A connection comes from a surviving entry, but its place is that of the first line of the body which shows
it.  That line may be an entry that did not survive, or a requirement on a deeper line that only reads
like an entry: it then stands between the header and every surviving entry, and shadows them.
`Graph.findsFirstShown_of_build` says when the place is that of a surviving entry.
-/

namespace AreaAtlas

open Areas (Line)

/-- A surviving entry on this line leads from the one name to the other. -/
def Logic.LeadsAt (logic : Logic) (start finish : String) (number : Nat) : Prop :=
  ∃ d ∈ logic.declarations, d.name = start ∧
    ∃ e ∈ d.survivors .unrestricted, e.target = finish ∧ e.line = number

instance (logic : Logic) (start finish : String) (number : Nat) :
    Decidable (logic.LeadsAt start finish number) :=
  inferInstanceAs (Decidable (∃ d ∈ logic.declarations, _ ∧ _))

/-- **Where the connections of a graph are found** in the areas text that it is built from. -/
structure Graph.FindsFirstShown (g : Graph) (areas : String) (logic : Logic) : Prop where
  /-- The place is that of the first line under the anchor of the start which shows the connection. -/
  located : ∀ c ∈ g.connections, ∃ p ∈ Areas.anchorLines (Areas.logicalLines areas.toList),
    p.1.Declares c.start ∧ ∃ before line behind, p.2 = before ++ line :: behind ∧
      Place.Shows c.kind c.finish.toList line ∧
      (∀ l ∈ before, ¬Place.Shows c.kind c.finish.toList l) ∧
      Place.ofConnection? c areas.toList false = some ⟨line.number - 1, line.indent⟩ ∧
      0 < line.number
  /-- It is that of a surviving entry exactly if no line that shows the connection stands in front of all
  of them. -/
  leadsAt_iff : ∀ c ∈ g.connections, ∀ place, Place.ofConnection? c areas.toList false = some place →
    (logic.LeadsAt c.start c.finish (place.line + 1) ↔
      ∀ p ∈ Areas.anchorLines (Areas.logicalLines areas.toList), p.1.Declares c.start →
        ∀ l ∈ p.2, Place.Shows c.kind c.finish.toList l →
          ∃ number ≤ l.number, logic.LeadsAt c.start c.finish number)

namespace Areas

/-! ## Line numbers -/

/-- Lines are numbered in their order. -/
theorem pairwise_number_logicalLines (text : List Char) :
    (logicalLines text).Pairwise fun l m => l.number < m.number := by
  have hnumbers : ((lines text).zipIdx 1).Pairwise fun p q => p.2 < q.2 := by
    rw [← List.pairwise_map (f := Prod.snd), List.zipIdx_map_snd]
    exact List.pairwise_lt_range'
  unfold logicalLines
  rw [List.pairwise_filterMap]
  refine hnumbers.imp ?_
  rintro ⟨raw, number⟩ ⟨raw', number'⟩ hlt l hl m hm
  rw [(content_eq_written hl).1, (content_eq_written hm).1]
  exact hlt

/-- So are those of a body, and the first line with a property has the least number of all that have it. -/
theorem number_le_of_first {text : List Char} {p : Line × List Line}
    (hp : p ∈ anchorLines (logicalLines text)) {P : Line → Prop} {before behind : List Line}
    {line : Line} (hbody : p.2 = before ++ line :: behind) (hbefore : ∀ l ∈ before, ¬P l) {l : Line}
    (hl : l ∈ p.2) (h : P l) : line.number ≤ l.number := by
  obtain ⟨front, rest, hlines, -⟩ := exists_eq_of_mem_anchorLines_body hp
  have hnumbers := pairwise_number_logicalLines text
  have hsublist : (line :: behind).Sublist (logicalLines text) := by
    have hinfix : line :: behind <:+: logicalLines text :=
      ⟨front ++ p.1 :: before, rest, by rw [hlines, hbody]; simp⟩
    exact hinfix.sublist
  rw [hbody] at hl
  rcases List.mem_append.mp hl with hl | hl
  · exact absurd h (hbefore l hl)
  · rcases List.mem_cons.mp hl with rfl | hl
    · exact Nat.le_refl _
    · have hlt := List.rel_of_pairwise_cons (hnumbers.sublist hsublist) hl
      omega

theorem line_of_entryAbove? {line : Line} {behind : List Line} {e : Entry}
    (h : line.entryAbove? behind = some e) : e.line = line.number := by
  unfold Line.entryAbove? at h
  simp only [Option.bind_eq_bind, Option.bind_eq_some_iff, Option.pure_def, Option.some.injEq] at h
  obtain ⟨text, -, kind, -, target, -, rfl⟩ := h
  rfl

end Areas

section Located

variable {areas locations : String} {logic : Logic}
  (hspaced : isPlainlySpaced areas.toList = true)
  (hlogic : Logic.readUnrestricted areas locations = .ok logic)

include hlogic

/-- A connection of the graph leads along a passage, and is of the kind of its end. -/
theorem leads_of_mem_connections {c : Connection}
    (hc : c ∈ (Graph.ofNodes logic.nodes).connections) :
    Leads (Areas.logicalLines areas.toList) logic.nodes c.start c.finish ∧
      c.kind = (Graph.ofNodes logic.nodes).kindTo c.finish := by
  have hexact := isExact_of_readUnrestricted hlogic
  obtain ⟨-, -, -, hds, hlink, hnodes⟩ := Logic.read_eq_ok_iff.mp hlogic
  rw [hds] at hlink hnodes
  obtain ⟨e, he, hconnection, -⟩ := exists_of_mem_connections hexact hc
  refine ⟨(mem_map_ends_iff_leads hlink hnodes _ _).mp ?_, ?_⟩
  · rw [hconnection]
    exact List.mem_map_of_mem he
  · exact ((Graph.isWellFormed_ofNodes hexact).kind_eq_kindTo hc).1

include hspaced

/-- The line of a surviving entry that leads to a placed name is one of the body, and shows it. -/
theorem exists_shows_of_leadsAt {a b : String} (hplaced : b ∈ placedNames logic.nodes) {number : Nat}
    (h : logic.LeadsAt a b number) {p : Line × List Line}
    (hp : p ∈ Areas.anchorLines (Areas.logicalLines areas.toList)) (hdeclares : p.1.Declares a) :
    ∃ l ∈ p.2, Place.Shows ((Graph.ofNodes logic.nodes).kindTo b) b.toList l ∧ l.number = number := by
  obtain ⟨-, -, hgrammar, hds, -⟩ := Logic.read_eq_ok_iff.mp hlogic
  obtain ⟨d, hd, rfl, e, he, rfl, rfl⟩ := h
  rw [hds] at hd
  obtain ⟨q, hq, hdeclared, -, hentries⟩ := Areas.exists_of_mem_declarationsIn hd
  obtain rfl : q = p := (names_of_readUnrestricted hlogic).eq_of_declares hq hp hdeclared hdeclares
  have hsurvivor : e ∈ Areas.survivorsIn .unrestricted (Areas.logicalLines areas.toList) := by
    rw [Areas.survivorsIn_eq hgrammar]
    exact List.mem_flatMap.mpr ⟨d, hd, he⟩
  have hentry := (List.mem_filter.mp he).1
  rw [hentries] at hentry
  obtain ⟨r, hr, habove⟩ := List.mem_filterMap.mp hentry
  obtain ⟨hmem, hshows⟩ := Place.shows_of_mem_entryLines hspaced hgrammar hp hr habove
    (keyword_mem_entryKeywords hlogic hplaced e hsurvivor rfl)
  exact ⟨r.1, hmem, hshows, (Areas.line_of_entryAbove? habove).symm⟩

/-- The place of a connection is that of the first line that shows it. -/
theorem exists_ofConnection?_eq_some {c : Connection}
    (hc : c ∈ (Graph.ofNodes logic.nodes).connections) :
    ∃ p ∈ Areas.anchorLines (Areas.logicalLines areas.toList),
      p.1.Declares c.start ∧ ∃ before line behind, p.2 = before ++ line :: behind ∧
        Place.Shows c.kind c.finish.toList line ∧
        (∀ l ∈ before, ¬Place.Shows c.kind c.finish.toList l) ∧
        Place.ofConnection? c areas.toList false = some ⟨line.number - 1, line.indent⟩ ∧
        0 < line.number := by
  obtain ⟨-, -, hgrammar, -⟩ := Logic.read_eq_ok_iff.mp hlogic
  obtain ⟨hleads, hkind⟩ := leads_of_mem_connections hlogic hc
  obtain ⟨p, hp, hdeclares, before, line, behind, hbody, hshows, hbefore, hplace, hpos⟩ :=
    Place.exists_ofPassage?_eq_some hspaced hgrammar (names_of_readUnrestricted hlogic) hleads.1
      (keyword_mem_entryKeywords hlogic hleads.2.2)
  rw [← hkind] at hshows hbefore hplace
  refine ⟨p, hp, hdeclares, before, line, behind, hbody, hshows, hbefore, ?_, hpos⟩
  cases hu : c.unidirectional with
  | true => exact Place.ofConnection?_of_unidirectional hu hplace false
  | false =>
    rw [Place.ofConnection?_of_both hu]
    exact hplace

end Located

/-- **A connection is found at the first line under the anchor of its start that shows it**, in texts whose
white space is plain. -/
theorem Graph.findsFirstShown_of_build {areas locations : String} {g : Graph}
    (hspaced : isPlainlySpaced areas.toList = true) (h : Graph.build areas locations = .ok g) :
    ∃ logic, Logic.readUnrestricted areas locations = .ok logic ∧
      g.FindsFirstShown areas logic := by
  obtain ⟨logic, hlogic, rfl⟩ := Except.map_eq_ok_iff.mp h
  refine ⟨logic, hlogic, { located := ?located, leadsAt_iff := ?leadsAt_iff }⟩
  case located =>
    intro c hc
    exact exists_ofConnection?_eq_some hspaced hlogic hc
  case leadsAt_iff =>
    intro c hc place hplace
    obtain ⟨hleads, hkind⟩ := leads_of_mem_connections hlogic hc
    obtain ⟨p, hp, hdeclares, before, line, behind, hbody, hshows, hbefore, hfound, hpos⟩ :=
      exists_ofConnection?_eq_some hspaced hlogic hc
    rw [hfound] at hplace
    obtain rfl := Option.some.inj hplace
    have hnumber : line.number - 1 + 1 = line.number := Nat.sub_add_cancel hpos
    show logic.LeadsAt c.start c.finish (line.number - 1 + 1) ↔ _
    rw [hnumber]
    have hfirst : ∀ l ∈ p.2, Place.Shows c.kind c.finish.toList l → line.number ≤ l.number :=
      fun l hl hl' => Areas.number_le_of_first hp hbody hbefore hl hl'
    constructor
    · intro hsurvives q hq hdeclares' l hl hl'
      obtain rfl : q = p :=
        (names_of_readUnrestricted hlogic).eq_of_declares hq hp hdeclares' hdeclares
      exact ⟨line.number, hfirst l hl hl', hsurvives⟩
    · intro hnone
      have hline : line ∈ p.2 := by
        rw [hbody]
        simp
      obtain ⟨number, hle, hsurvives⟩ := hnone p hp hdeclares line hline hshows
      -- the surviving entry is on a line that shows the connection too, and that is not earlier
      obtain ⟨l, hl, hl', rfl⟩ := exists_shows_of_leadsAt hspaced hlogic hleads.2.2 hsurvives hp hdeclares
      rw [← hkind] at hl'
      have hge := hfirst l hl hl'
      have hsame : l.number = line.number := by omega
      rwa [hsame] at hsurvives

/-- Three anchors in a circle.  The entry of the first stands behind one that does not survive, and the
entry of the last behind a line that is no entry but reads like one. -/
def Areas.shadowedEntries : String :=
  "anchor A at 1, 2:\n  conn B: impossible\n  conn B: free\nanchor B at 3, 4:\n  conn C: free\n" ++
    "anchor C at 5, 6:\n  tprestriction:\n    conn A: free\n  conn A: free\n"

theorem Areas.isPlainlySpaced_shadowedEntries :
    isPlainlySpaced Areas.shadowedEntries.toList = true := by
  decide +kernel

theorem Graph.exists_build_shadowedEntries :
    ∃ (g : Graph) (logic : Logic), Graph.build Areas.shadowedEntries "" = .ok g ∧
      Logic.readUnrestricted Areas.shadowedEntries "" = .ok logic ∧
      g.connections.map (fun c =>
          (c.start, c.finish, Place.ofConnection? c Areas.shadowedEntries.toList false))
        = [("C", "A", some ⟨7, 4⟩), ("B", "C", some ⟨4, 2⟩), ("A", "B", some ⟨1, 2⟩)] ∧
      ¬logic.LeadsAt "A" "B" 2 := by
  have hread : (Logic.readUnrestricted Areas.shadowedEntries "").map (fun logic =>
      ((Graph.ofNodes logic.nodes).connections.map (fun c =>
          (c.start, c.finish, Place.ofConnection? c Areas.shadowedEntries.toList false)),
        decide (logic.LeadsAt "A" "B" 2)))
      = .ok ([("C", "A", some ⟨7, 4⟩), ("B", "C", some ⟨4, 2⟩), ("A", "B", some ⟨1, 2⟩)], false) := by
    decide +kernel
  obtain ⟨logic, hlogic, hfacts⟩ := Except.map_eq_ok_iff.mp hread
  obtain ⟨hplaces, hnot⟩ := Prod.mk.inj hfacts
  refine ⟨Graph.ofNodes logic.nodes, logic, ?_, hlogic, hplaces, of_decide_eq_false hnot⟩
  rw [Graph.build, hlogic]
  rfl

theorem Graph.findsFirstShown_of_build_shadowedEntries :
    ∃ (g : Graph) (logic : Logic), isPlainlySpaced Areas.shadowedEntries.toList = true ∧
      Graph.build Areas.shadowedEntries "" = .ok g ∧
      Logic.readUnrestricted Areas.shadowedEntries "" = .ok logic ∧
      g.connections.map (fun c =>
          (c.start, c.finish, Place.ofConnection? c Areas.shadowedEntries.toList false))
        = [("C", "A", some ⟨7, 4⟩), ("B", "C", some ⟨4, 2⟩), ("A", "B", some ⟨1, 2⟩)] ∧
      g.FindsFirstShown Areas.shadowedEntries logic := by
  obtain ⟨g, -, hg, -, hplaces, -⟩ := Graph.exists_build_shadowedEntries
  have hspaced := Areas.isPlainlySpaced_shadowedEntries
  obtain ⟨logic, hlogic, hfinds⟩ := Graph.findsFirstShown_of_build hspaced hg
  exact ⟨g, logic, hspaced, hg, hlogic, hplaces, hfinds⟩

/-- The place of a connection need not be that of a surviving entry. -/
theorem Graph.exists_build_not_leadsAt :
    ∃ (areas locations : String) (g : Graph) (logic : Logic) (c : Connection) (place : Place),
      isPlainlySpaced areas.toList = true ∧ Graph.build areas locations = .ok g ∧
      Logic.readUnrestricted areas locations = .ok logic ∧ c ∈ g.connections ∧
      Place.ofConnection? c areas.toList false = some place ∧
      ¬logic.LeadsAt c.start c.finish (place.line + 1) := by
  obtain ⟨g, logic, hg, hlogic, hplaces, hnot⟩ := Graph.exists_build_shadowedEntries
  have hlast : ("A", "B", some (⟨1, 2⟩ : Place)) ∈ g.connections.map (fun c =>
      (c.start, c.finish, Place.ofConnection? c Areas.shadowedEntries.toList false)) := by
    rw [hplaces]
    simp
  obtain ⟨c, hc, heq⟩ := List.mem_map.mp hlast
  obtain ⟨hstart, hrest⟩ := Prod.mk.inj heq
  obtain ⟨hfinish, hplace⟩ := Prod.mk.inj hrest
  refine ⟨Areas.shadowedEntries, "", g, logic, c, ⟨1, 2⟩, Areas.isPlainlySpaced_shadowedEntries, hg,
    hlogic, hc, hplace, ?_⟩
  rw [hstart, hfinish]
  exact hnot

end AreaAtlas
