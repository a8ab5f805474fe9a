import AreaAtlas.Proofs.Graph.WellFormed
import AreaAtlas.Proofs.Place.Passage
import Mathlib.Data.List.Pairwise

/-!
# Where an anchor is declared

An anchor is searched for by its name alone.  The search knows of no comments, blocks or positions: it takes
the first line that begins with the keyword and the name.  In a text that is read such a line is a
header, and no two headers declare one name, so the search finds the declaration and nothing else.
-/

namespace AreaAtlas

open Areas (Line)

/-- No two anchor lines declare one name. -/
theorem NodeTable.Names.eq_of_declares {lines : List Line} {locations : List Location}
    {setting : Difficulty} (h : NodeTable.Names lines locations setting) {p q : Line × List Line}
    (hp : p ∈ Areas.anchorLines lines) (hq : q ∈ Areas.anchorLines lines) {name : String}
    (hpname : p.1.Declares name) (hqname : q.1.Declares name) : p = q := by
  have hsymm : Std.Symm fun p q : Line × List Line =>
      ∀ name, p.1.Declares name → ¬q.1.Declares name :=
    ⟨fun p q hpq name hq hp => hpq name hp hq⟩
  by_contra hne
  exact h.distinct.forall hp hq hne name hpname hqname

/-- A node of the kind of anchors stands for a declaration of its name. -/
theorem NodeTable.exists_declaration_of_kind {register : Register} {setting : Difficulty}
    {ds : List Areas.Declaration} (h : Linkable register setting ds) {n : Node}
    (hn : n ∈ tableOf register.locations setting ds) (hkind : n.kind = .anchor) :
    ∃ d ∈ ds, d.name = n.identifier := by
  obtain ⟨d, hd, hmember⟩ := exists_anchor_of_mem_tableOf h hn hkind
  exact ⟨d, hd, (congrArg Member.identifier hmember).symm⟩

namespace Place

/-! ## Lines that declare -/

/-- Looking for a name behind the keyword is reading the name there. -/
theorem declares_eq_true_iff {name text : List Char} (h : IsRun isNameChar name) :
    declares name text = true ↔ declaredName? text = some name := by
  rw [declaredName?_eq_some_iff]
  unfold declares
  constructor
  · intro hdeclares
    cases hp : anchorKeyword.isPrefixOf? text with
    | none =>
      rw [hp] at hdeclares
      cases hdeclares
    | some rest =>
      rw [hp] at hdeclares
      obtain ⟨length, hlength⟩ := Option.isSome_iff_exists.mp hdeclares
      obtain ⟨gap, behind, ⟨rfl, hgap, hbehind⟩, -⟩ := gapAndName?_sound hlength
      refine ⟨gap, name ++ behind, (List.isPrefixOf?_eq_some_iff_append_eq.mp hp).symm, hgap, ?_, ?_⟩
      · exact h.stopsAt_append fun c hc => isGap_eq_false (isBlank_eq_false_of_isNameChar hc)
      · exact (takeWhile_append_of_stopsAt h.2 hbehind).symm
  · rintro ⟨gap, rest, rfl, hgap, -, hname⟩
    rw [List.isPrefixOf?_eq_some_iff_append_eq.mpr rfl]
    have hrest : rest = name ++ rest.dropWhile isNameChar := by
      rw [hname, List.takeWhile_append_dropWhile]
    exact isSome_gapAndName? ⟨congrArg (gap ++ ·) hrest, hgap, stopsAt_dropWhile⟩ h

/-- A name that a header declares can be written as one. -/
theorem isRun_of_declares {line : Line} {name : String} (h : line.Declares name) :
    IsRun isNameChar name.toList := by
  obtain ⟨place, hform⟩ := h
  obtain ⟨gap, behind, -, -, hname, -⟩ := hform.exists_eq_append
  exact hname

/-- So can a name that an entry leads to. -/
theorem isRun_target_of_mem_survivorsIn {lines : List Line} (hgrammar : Areas.Grammar lines)
    {setting : Difficulty} {e : Areas.Entry} (h : e ∈ Areas.survivorsIn setting lines) :
    IsRun isNameChar e.target.toList := by
  obtain ⟨p, hp, he⟩ := List.mem_flatMap.mp h
  obtain ⟨q, hq, habove⟩ := List.mem_filterMap.mp (List.mem_filter.mp he).1
  obtain ⟨gap, after, -, -, hname, -⟩ := ((hgrammar.bodies p hp).entries q hq).exists_eq_append habove
  exact hname

section Read

variable {text : List Char} (hspaced : isPlainlySpaced text = true)
  (hgrammar : Areas.Grammar (Areas.logicalLines text)) {name : String}

include hspaced hgrammar

/-- A line that the search takes is the header of an anchor of the name. -/
theorem exists_declares_of_declares (hname : IsRun isNameChar name.toList)
    {start : Nat × List Char} (hstart : start ∈ lineStarts text)
    (h : declares name.toList start.2 = true) :
    ∃ p ∈ Areas.anchorLines (Areas.logicalLines text), p.1.Declares name ∧
      ofOffset text start.1 = ⟨p.1.number - 1, 0⟩ := by
  obtain ⟨⟨start, number⟩, hs, rfl⟩ : ∃ s ∈ (lineStarts text).zipIdx 1, s.1 = start := by
    rw [← List.zipIdx_map_fst 1 (lineStarts text)] at hstart
    exact List.mem_map.mp hstart
  have hdeclared := (declares_eq_true_iff hname).mp h
  obtain ⟨line, hline, hanchor⟩ := exists_isAnchor_of_declaredName? hdeclared number
  have hmem : line ∈ Areas.logicalLines text := by
    rw [Areas.logicalLines_eq hspaced]
    exact List.mem_filterMap.mpr ⟨(start, number), hs, hline⟩
  -- the line is a header, so it declares a name, and it is found under that name only
  obtain ⟨other, place, hform⟩ := hgrammar.isHeader hmem hanchor
  have hother : line.Declares (.ofList other) := ⟨place, by rwa [String.toList_ofList]⟩
  have hindent := Line.indent_of_isAnchor hanchor
  have hfound := declaredName?_of_declares (isPlainlySpaced_of_mem_lineStarts hspaced hstart) hline
    hindent hother
  obtain rfl : String.ofList other = name :=
    String.toList_injective (Option.some.inj (hfound.symm.trans hdeclared))
  obtain ⟨behind, hsuffix⟩ := Areas.exists_mem_suffixes hmem
  refine ⟨(line, Areas.deeper 0 behind), ?_, hother, ?_⟩
  · exact List.mem_map_of_mem (List.mem_filter.mpr ⟨hsuffix, hanchor⟩)
  · rw [← hindent]
    exact (ofOffset_eq hs hline).1

/-- **An undeclared name is not found.** -/
theorem ofAnchor?_eq_none (hname : IsRun isNameChar name.toList)
    (h : ¬∃ p ∈ Areas.anchorLines (Areas.logicalLines text), p.1.Declares name) :
    ofAnchor? name text = none := by
  unfold ofAnchor?
  rw [Option.map_eq_none_iff, List.find?_eq_none]
  intro start hstart hdeclares
  obtain ⟨p, hp, hdeclared, -⟩ :=
    exists_declares_of_declares hspaced hgrammar hname hstart hdeclares
  exact h ⟨p, hp, hdeclared⟩

/-- **A declared name is found where it is declared.** -/
theorem ofAnchor?_eq_some {locations : List Location} {setting : Difficulty}
    (hnames : NodeTable.Names (Areas.logicalLines text) locations setting)
    {p : Line × List Line} (hp : p ∈ Areas.anchorLines (Areas.logicalLines text))
    (h : p.1.Declares name) :
    ofAnchor? name text = some ⟨p.1.number - 1, 0⟩ ∧ 0 < p.1.number := by
  have hname := isRun_of_declares h
  obtain ⟨front, behind, hlines, hanchor, -⟩ := Areas.exists_eq_of_mem_anchorLines hp
  have hmem : p.1 ∈ Areas.logicalLines text := by
    rw [hlines]
    simp
  obtain ⟨s, hs, hline⟩ := exists_lineAt? hspaced hmem
  have hstart : s.1 ∈ lineStarts text := List.fst_mem_of_mem_zipIdx hs
  have hdeclares : declares name.toList s.1.2 = true :=
    (declares_eq_true_iff hname).mpr (declaredName?_of_declares
      (isPlainlySpaced_of_mem_lineStarts hspaced hstart) hline (Line.indent_of_isAnchor hanchor) h)
  -- the search may find another line first, but that declares the same name and so is this one
  obtain ⟨found, hfound⟩ : ∃ found,
      (lineStarts text).find? (fun line => declares name.toList line.2) = some found := by
    rw [← Option.isSome_iff_exists, List.find?_isSome]
    exact ⟨s.1, hstart, hdeclares⟩
  have hfits : declares name.toList found.2 = true := by
    have hsome := List.find?_some hfound
    exact hsome
  obtain ⟨q, hq, hdeclared, hplace⟩ :=
    exists_declares_of_declares hspaced hgrammar hname (List.mem_of_find?_eq_some hfound) hfits
  have hsame : q = p := hnames.eq_of_declares hq hp hdeclared h
  refine ⟨?_, (ofOffset_eq hs hline).2⟩
  unfold ofAnchor?
  rw [hfound, Option.map_some, hplace, hsame]

end Read

end Place

/-! ## The anchors of a graph -/

/-- **Where the nodes of a graph are found** in the areas text that it is built from. -/
structure Graph.FindsHeaders (g : Graph) (areas : String) (logic : Logic) : Prop where
  /-- Every vertex is an anchor, a pickup or a quest of the logic, and of these one only. -/
  node : ∀ entry ∈ g.vertices, ∃! n, n ∈ logic.nodes ∧ n.identifier = entry.2.name ∧
    (n.kind = .anchor ∨ n.kind = .pickup ∨ n.kind = .quest)
  /-- An anchor is found at the front of the line that its declaration was read from. -/
  anchor : ∀ entry ∈ g.vertices, ∀ n ∈ logic.nodes, n.identifier = entry.2.name →
    n.kind = .anchor → ∃ d ∈ logic.declarations, d.name = entry.2.name ∧
      (∀ other ∈ logic.declarations, other.name = entry.2.name → other = d) ∧ 0 < d.line ∧
      Place.ofAnchor? entry.2.name areas.toList = some ⟨d.line - 1, 0⟩
  /-- A pickup or a quest is not found. -/
  leaf : ∀ entry ∈ g.vertices, ∀ n ∈ logic.nodes, n.identifier = entry.2.name →
    n.kind = .pickup ∨ n.kind = .quest → Place.ofAnchor? entry.2.name areas.toList = none

/-- A vertex stands for the node of its name. -/
theorem exists_node_of_mem_vertices {nodes : List Node} (hn : (nodes.map (·.identifier)).Nodup)
    {entry : String × Vertex} (h : entry ∈ (Graph.ofNodes nodes).vertices) :
    ∃ n ∈ Pairing.placed nodes, n.identifier = entry.2.name := by
  rw [vertices_ofNodes hn] at h
  obtain ⟨n, hmem, hkeyed⟩ := List.mem_filterMap.mp h
  rw [Node.keyed?_eq] at hkeyed
  obtain ⟨p, hp, rfl⟩ := Option.map_eq_some_iff.mp hkeyed
  exact ⟨n, List.mem_filter.mpr ⟨hmem, by rw [hp]; rfl⟩, rfl⟩

/-- **Anchors are found where they were read, and pickups and quests are not found**, in texts whose
white space is plain. -/
theorem Graph.findsHeaders_of_build {areas locations : String} {g : Graph}
    (hspaced : isPlainlySpaced areas.toList = true) (h : Graph.build areas locations = .ok g) :
    ∃ logic, Logic.readUnrestricted areas locations = .ok logic ∧ g.FindsHeaders areas logic := by
  obtain ⟨logic, hlogic, rfl⟩ := Except.map_eq_ok_iff.mp h
  have hexact := isExact_of_readUnrestricted hlogic
  obtain ⟨-, -, hgrammar, hds, hlink, hnodes⟩ := Logic.read_eq_ok_iff.mp hlogic
  have hnames := names_of_readUnrestricted hlogic
  refine ⟨logic, hlogic, { node := ?node, anchor := ?anchor, leaf := ?leaf }⟩
  case node =>
    intro entry hentry
    obtain ⟨n, hn, hname⟩ := exists_node_of_mem_vertices hexact.nodup hentry
    have hmem := Pairing.mem_of_mem_placed hn
    refine ⟨n, ⟨hmem, hname, ?_⟩, ?_⟩
    · by_cases hkind : n.kind = .anchor
      · exact Or.inl hkind
      · exact Or.inr ((placed_of_isExact hexact hn).mp hkind)
    · rintro m ⟨hm, hname', -⟩
      exact List.inj_on_of_nodup_map hexact.nodup hm hmem (hname'.trans hname.symm)
  case anchor =>
    intro entry _ n hn hname hkind
    rw [hnodes] at hn
    obtain ⟨d, hd, hdname⟩ := NodeTable.exists_declaration_of_kind hlink hn hkind
    have hdname : d.name = entry.2.name := hdname.trans hname
    obtain ⟨p, hp, hdeclares, hline, -⟩ := Areas.exists_of_mem_declarationsIn (hds ▸ hd)
    rw [hdname] at hdeclares
    obtain ⟨hplace, hpos⟩ := Place.ofAnchor?_eq_some hspaced hgrammar hnames hp hdeclares
    rw [← hline] at hplace hpos
    refine ⟨d, hd, hdname, ?_, hpos, hplace⟩
    intro other hother hsame
    exact List.inj_on_of_nodup_map hlink.nodup hother hd (hsame.trans hdname.symm)
  case leaf =>
    intro entry _ n hn hname hkind
    rw [hnodes] at hn
    obtain ⟨e, he, -, hmember⟩ :=
      NodeTable.exists_of_mem_tableOf hlink hn (NodeTable.ne_anchor_of_placed hkind)
    have htarget : e.target = entry.2.name :=
      (congrArg NodeTable.Member.identifier hmember).symm.trans hname
    have hekind : e.kind ≠ .anchor := by
      have hkind' : n.kind = e.kind := congrArg NodeTable.Member.kind hmember
      rw [← hkind']
      exact NodeTable.ne_anchor_of_placed hkind
    rw [hds, ← Areas.survivorsIn_eq hgrammar] at he
    have hrun := Place.isRun_target_of_mem_survivorsIn hgrammar he
    rw [← htarget]
    exact Place.ofAnchor?_eq_none hspaced hgrammar hrun (hnames.leaves e he hekind)

/-- Two anchors, the name of the one a part of the other's, behind lines that only look like a header of
the shorter name, and a pickup. -/
def Areas.similarNames : String :=
  "# anchor A:\r\nrequirement Open:\r\n  anchor A:\nanchor A.B at 1, 2: # anchor A:\n  conn A: free\n" ++
    "  pickup Gem: free\nanchor\t A at 3, 4:\n  conn A.B: free\n"

theorem Graph.findsHeaders_of_build_similarNames :
    ∃ (g : Graph) (logic : Logic),
      isPlainlySpaced Areas.similarNames.toList = true ∧
      Graph.build Areas.similarNames "Gem,Zone,,,5,6\n" = .ok g ∧
      Logic.readUnrestricted Areas.similarNames "Gem,Zone,,,5,6\n" = .ok logic ∧
      g.vertices.keys.map (Place.ofAnchor? · Areas.similarNames.toList)
        = [some ⟨3, 0⟩, some ⟨6, 0⟩, none] ∧
      g.FindsHeaders Areas.similarNames logic := by
  have hspaced : isPlainlySpaced Areas.similarNames.toList = true := by decide +kernel
  have hbuild : (Graph.build Areas.similarNames "Gem,Zone,,,5,6\n").map (fun g =>
      g.vertices.keys.map (Place.ofAnchor? · Areas.similarNames.toList))
      = .ok [some ⟨3, 0⟩, some ⟨6, 0⟩, none] := by
    decide +kernel
  obtain ⟨g, hg, hplaces⟩ := Except.map_eq_ok_iff.mp hbuild
  obtain ⟨logic, hlogic, hfinds⟩ := Graph.findsHeaders_of_build hspaced hg
  exact ⟨g, logic, hspaced, hg, hlogic, hplaces, hfinds⟩

end AreaAtlas
