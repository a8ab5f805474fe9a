import AreaAtlas.Difficulty
import AreaAtlas.Proofs.NodeTable.Exactness
import AreaAtlas.Proofs.Text.Run
import Mathlib.Data.List.Flatten

/-!
# Node tables at different difficulties

A requirement is read as far as its first word.  What the word has to be is said here of the text as it
is written, and `Requirement.permits_unrestricted_iff` says which requirements no difficulty meets.

A lower difficulty lets fewer entries survive.  Resolving fewer entries adds leaves at other moments, so
the leaves of the two tables stand in different orders and have different indices; but as entries are
consistent without regard to their order, nothing that was resolved before can fail now.
`Logic.read_mono` is the main statement.
-/

namespace AreaAtlas.Requirement

/-! ## Keywords of requirements -/

/-- A requirement begins with a keyword, whatever the case of its letters: with a word that is this
keyword in lower case, and then it ends or a character follows that ends a word. -/
def BeginsWith (keyword : String) (alternative : List Char) : Prop :=
  ∃ word rest, alternative = word ++ rest ∧ (∀ c ∈ word, endsWord c = false) ∧
    (∀ c ∈ rest.head?, endsWord c = true) ∧ lower (.ofList word) = keyword

theorem beginsWith_iff {keyword : String} {alternative : List Char} :
    BeginsWith keyword alternative ↔ firstWord alternative = keyword := by
  unfold firstWord
  constructor
  · rintro ⟨word, rest, rfl, hword, hrest, hkeyword⟩
    have htake : (word ++ rest).takeWhile (fun c => !endsWord c) = word := by
      refine takeWhile_append_of_stopsAt ?_ ?_
      · intro c hc
        rw [hword c hc, Bool.not_false]
      · intro c hc
        show (!endsWord c) = false
        rw [hrest c hc, Bool.not_true]
    rw [htake, hkeyword]
  · intro h
    refine ⟨_, _, List.takeWhile_append_dropWhile.symm, ?_, ?_, h⟩
    · intro c hc
      have := List.mem_takeWhile_imp hc
      rwa [Bool.not_eq_true'] at this
    · intro c hc
      have := stopsAt_dropWhile c hc
      rwa [Bool.not_eq_false'] at this

/-- The least restrictive difficulty meets every requirement that does not rule the path out. -/
theorem permits_unrestricted_iff {alternative : List Char} :
    permits .unrestricted alternative = true ↔ ¬BeginsWith never alternative := by
  rw [beginsWith_iff]
  unfold permits
  dsimp only
  by_cases hword : firstWord alternative = never
  · rw [if_pos hword]
    exact iff_of_false Bool.false_ne_true fun h => h hword
  · rw [if_neg hword]
    refine iff_of_true ?_ hword
    cases Difficulty.ofWord? (firstWord alternative) with
    | none => rfl
    | some d => exact decide_eq_true d.le_unrestricted

end AreaAtlas.Requirement

namespace AreaAtlas

/-! ## Tables -/

/-! ### Entries that survive -/

namespace Areas

theorem Declaration.survivors_sublist {a b : Difficulty} (h : a ≤ b) (d : Declaration) :
    (d.survivors a).Sublist (d.survivors b) :=
  List.monotone_filter_right d.entries fun _ hp => Entry.isPermitted_mono h hp

theorem survivors_sublist {a b : Difficulty} (h : a ≤ b) (ds : List Declaration) :
    (survivors a ds).Sublist (survivors b ds) :=
  List.Sublist.flatMap_right ds fun d _ => d.survivors_sublist h

/-- The least restrictive difficulty prunes the entries of which every alternative begins with the word
that rules a path out. -/
theorem Entry.isPermitted_unrestricted_eq_false_iff {e : Entry} :
    e.isPermitted .unrestricted = false ↔
      ∀ alternative ∈ e.alternatives, Requirement.BeginsWith Requirement.never alternative := by
  unfold Entry.isPermitted
  rw [List.any_eq_false]
  simp only [Requirement.permits_unrestricted_iff, not_not]

end Areas

namespace NodeTable

open Areas (Declaration Entry)

/-! ### Fewer entries -/

section Restriction

variable {register : Register} {members : List Member} {a b : Difficulty} {ds : List Declaration}

theorem Consistent.mono {es es' : List Entry} (h : Consistent register members es')
    (hsub : ∀ e ∈ es, e ∈ es') : Consistent register members es where
  known := fun e he => h.known e (hsub e he)
  fresh := fun e he => h.fresh e (hsub e he)
  agree := fun e he e' he' => h.agree e (hsub e he) e' (hsub e' he')

/-- What can be linked can be linked at a lower difficulty. -/
theorem Linkable.mono (hab : a ≤ b) (h : Linkable register b ds) : Linkable register a ds where
  nodup := h.nodup
  consistent := h.consistent.mono fun _ he => (Areas.survivors_sublist hab ds).subset he

/-- The anchors of a table are its first nodes. -/
theorem filter_anchor_tableOf (h : Linkable register a ds) :
    (tableOf register.locations a ds).filter (·.kind = .anchor)
      = (tableOf register.locations a ds).take ds.length := by
  have hanchors : ∀ n ∈ (tableOf register.locations a ds).take ds.length, n.kind = .anchor := by
    obtain ⟨hlength, hnode⟩ := List.forall₂_iff_get.mp (forall₂_take_tableOf register a ds)
    intro n hn
    obtain ⟨i, hi, rfl⟩ := List.mem_iff_getElem.mp hn
    exact (hnode i (hlength ▸ hi) hi).1.1
  have hleaves : ∀ n ∈ (tableOf register.locations a ds).drop ds.length, n.kind ≠ .anchor :=
    fun n hn => kind_ne_anchor_of_mem_drop h hn
  conv => lhs; rw [← List.take_append_drop ds.length (tableOf register.locations a ds)]
  rw [List.filter_append, List.filter_eq_self.mpr fun n hn => decide_eq_true (hanchors n hn),
    List.filter_eq_nil_iff.mpr fun n hn => by simpa using hleaves n hn, List.append_nil]

theorem index_get_take_tableOf {n : Nat}
    (i : Fin ((tableOf register.locations a ds).take n).length) :
    (((tableOf register.locations a ds).take n).get i).index = i := by
  rw [List.get_eq_getElem, List.getElem_take]
  exact index_eq_of_tableOf i.val _

/-- The members at a lower difficulty are among those at a higher one. -/
theorem membersOf_subset (hab : a ≤ b) (h : Linkable register b ds) {m : Member}
    (hm : m ∈ membersOf register.locations a ds) : m ∈ membersOf register.locations b ds := by
  rcases (mem_membersOf_iff (h.mono hab)).mp hm with hanchor | ⟨e, he, hleaf⟩
  · exact (mem_membersOf_iff h).mpr (Or.inl hanchor)
  · exact (mem_membersOf_iff h).mpr (Or.inr ⟨e, (Areas.survivors_sublist hab ds).subset he, hleaf⟩)

end Restriction

/-- **A node table is part of another**: the anchors are the same and each leads to some of the nodes
that it leads to in the other table, in the same order, and each leaf is a leaf there. -/
structure IsPartOf (lower upper : List Node) : Prop where
  /-- The anchors have the same indices, names and positions, and their targets, by name, are some of
  the targets there. -/
  anchors : List.Forall₂
    (fun n m => n.index = m.index ∧ n.identifier = m.identifier ∧ n.position = m.position ∧
      (n.targets.map (nameAt? lower)).Sublist (m.targets.map (nameAt? upper)))
    (lower.filter (·.kind = .anchor)) (upper.filter (·.kind = .anchor))
  /-- The leaves have a node of the same name, kind and position there. -/
  leaves : ∀ n ∈ lower, n.kind ≠ .anchor →
    ∃ m ∈ upper, m.identifier = n.identifier ∧ m.kind = n.kind ∧ m.position = n.position

/-- The table of declarations at a lower difficulty is part of that at a higher one. -/
theorem tableOf_isPartOf {register : Register} {a b : Difficulty} {ds : List Declaration}
    (hab : a ≤ b) (h : Linkable register b ds) :
    IsPartOf (tableOf register.locations a ds) (tableOf register.locations b ds) where
  anchors := by
    obtain ⟨hlength, hlower⟩ := List.forall₂_iff_get.mp (forall₂_take_tableOf register a ds)
    obtain ⟨hlength', hupper⟩ := List.forall₂_iff_get.mp (forall₂_take_tableOf register b ds)
    rw [filter_anchor_tableOf (h.mono hab), filter_anchor_tableOf h, List.forall₂_iff_get]
    refine ⟨hlength.symm.trans hlength', ?_⟩
    -- both nodes stand at the place of one declaration
    intro i hi hi'
    obtain ⟨⟨-, hname, hposition⟩, htargets⟩ := hlower i (hlength ▸ hi) hi
    obtain ⟨⟨-, hname', hposition'⟩, htargets'⟩ := hupper i (hlength ▸ hi) hi'
    refine ⟨?_, hname.trans hname'.symm, hposition.trans hposition'.symm, ?_⟩
    · rw [index_get_take_tableOf, index_get_take_tableOf]
    · rw [htargets, htargets']
      exact (Declaration.survivors_sublist hab _).map _
  leaves := by
    intro n hn _
    have hmap : ∀ setting, (tableOf register.locations setting ds).map Node.toMember
        = membersOf register.locations setting ds := fun _ => map_toMember_number
    have hm := membersOf_subset hab h (hmap a ▸ List.mem_map_of_mem hn)
    rw [← hmap b] at hm
    obtain ⟨m, hm', hsame⟩ := List.mem_map.mp hm
    exact ⟨m, hm', congrArg Member.identifier hsame, congrArg Member.kind hsame,
      congrArg Member.position hsame⟩

end NodeTable

/-- **A lower difficulty reads whatever a higher one reads, and gives part of its node table.**  At the
least restrictive difficulty an entry is pruned exactly if all its alternatives begin with the word that
rules a path out. -/
theorem Logic.read_mono {areas locations states : String} {validate : Bool} {a b : Difficulty}
    (hab : a ≤ b) {upper : Logic}
    (hread : Logic.read areas locations states b validate = .ok upper) :
    (∃ lower, Logic.read areas locations states a validate = .ok lower ∧
        NodeTable.IsPartOf lower.nodes upper.nodes) ∧
      ∀ e : Areas.Entry, e.isPermitted .unrestricted = false ↔
        ∀ alternative ∈ e.alternatives, Requirement.BeginsWith Requirement.never alternative := by
  refine ⟨?_, fun e => Areas.Entry.isPermitted_unrestricted_eq_false_iff⟩
  obtain ⟨hlocations, hstates, hgrammar, hds, hlink, hnodes⟩ := Logic.read_eq_ok_iff.mp hread
  obtain ⟨nodes, hlower⟩ : ∃ nodes,
      nodes = NodeTable.tableOf upper.locations a upper.declarations := ⟨_, rfl⟩
  refine ⟨⟨upper.declarations, upper.locations, upper.states, nodes⟩, ?_, ?_⟩
  · exact Logic.read_eq_ok_iff.mpr ⟨hlocations, hstates, hgrammar, hds, hlink.mono hab, hlower⟩
  · have hpart := NodeTable.tableOf_isPartOf hab hlink
    show NodeTable.IsPartOf nodes upper.nodes
    rw [hlower, hnodes]
    exact hpart

/-- A pickup that only the highest difficulty reaches at once, and one that stands behind it. -/
def Areas.laterPearl : String :=
  "anchor A:\n  pickup Pearl: unsafe\n  quest Gem: free\n  conn B: Impossible\n" ++
    "anchor B at 1, 2:\n  pickup Pearl:\n    unsafe: Bash\n    moki: Bash\n"

theorem Logic.read_mono_laterPearl :
    ∃ upper lower, Difficulty.moki ≤ .extreme ∧
      Logic.read Areas.laterPearl "Pearl,Zone,,,3,4\nGem,Zone,,,,\n" "" .extreme false = .ok upper ∧
      Logic.read Areas.laterPearl "Pearl,Zone,,,3,4\nGem,Zone,,,,\n" "" .moki false = .ok lower ∧
      upper.nodes.map (fun n => (n.identifier, n.targets))
        = [("A", [2, 3]), ("B", [2]), ("Pearl", []), ("Gem", [])] ∧
      lower.nodes.map (fun n => (n.identifier, n.targets))
        = [("A", [2]), ("B", [3]), ("Gem", []), ("Pearl", [])] ∧
      NodeTable.IsPartOf lower.nodes upper.nodes := by
  have hle : Difficulty.moki ≤ .extreme := by decide
  have hupper : (Logic.read Areas.laterPearl "Pearl,Zone,,,3,4\nGem,Zone,,,,\n" "" .extreme false).map
      (·.nodes.map fun n => (n.identifier, n.targets))
      = .ok [("A", [2, 3]), ("B", [2]), ("Pearl", []), ("Gem", [])] := by
    decide +kernel
  have hlower : (Logic.read Areas.laterPearl "Pearl,Zone,,,3,4\nGem,Zone,,,,\n" "" .moki false).map
      (·.nodes.map fun n => (n.identifier, n.targets))
      = .ok [("A", [2]), ("B", [3]), ("Gem", []), ("Pearl", [])] := by
    decide +kernel
  obtain ⟨upper, hread, hnodes⟩ := Except.map_eq_ok_iff.mp hupper
  obtain ⟨⟨lower, hread', hpart⟩, -⟩ := Logic.read_mono hle hread
  rw [hread'] at hlower
  exact ⟨upper, lower, hle, hread, hread', hnodes, Except.ok.inj hlower, hpart⟩

end AreaAtlas
