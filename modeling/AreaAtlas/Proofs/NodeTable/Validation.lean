import AreaAtlas.Proofs.NodeTable.Exactness

/-!
# States that have to be known

If states have to be known, each one is looked up when the first entry leads to it, and nothing else is
looked up.  So what is resolved with known states is what is resolved without, less the outcomes that the
first unknown state refuses: `resolveAll_eq_verdict`, `link_eq_verdict`.  The first references to leaves
stand in the order of the node table, and so the state that is refused is the first unknown one there.
`Logic.read_validated` is the main statement.
-/

namespace AreaAtlas.NodeTable

open Areas (Declaration Entry)

/-- An entry leads to a state that is not among these. -/
def leadsToUnknown (states : List String) (e : Entry) : Bool :=
  e.kind = .state ∧ e.target ∉ states

/-- A node is a state that is not among these. -/
def isUnknown (states : List String) (n : Node) : Bool :=
  n.kind = .state ∧ n.identifier ∉ states

/-- A value, unless the state that an entry leads to is refused. -/
def verdict {α : Type} (value : α) : Option Entry → Except DocumentFault α
  | none => .ok value
  | some e => .error (.inAreas e.line (.unknownState e.target))

/-- Of two steps the first entry that is refused decides. -/
theorem bind_eq_verdict {α β : Type} {x : Except DocumentFault α} {f : α → Except DocumentFault β}
    {first : α} {value : β} {o o' : Option Entry} (hx : x = verdict first o)
    (hf : f first = verdict value o') : x >>= f = verdict value (o.or o') := by
  rw [hx]
  cases o with
  | none => exact hf
  | some e => rfl

theorem map_verdict {α β : Type} (f : α → β) (value : α) (o : Option Entry) :
    (verdict value o).map f = verdict (f value) o := by
  cases o with
  | none => rfl
  | some e => rfl

theorem verdict_eq_ok_iff {α : Type} {value value' : α} {o : Option Entry} :
    verdict value o = .ok value' ↔ o = none ∧ value' = value := by
  cases o with
  | none => simp [verdict, eq_comm]
  | some e => simp [verdict]

/-! ## First references -/

/-- What is named for the first time behind other entries is what they do not name either. -/
theorem firstReferences_append (known : List String) (es es' : List Entry) :
    firstReferences known (es ++ es') = firstReferences known es ++
      firstReferences (known ++ (firstReferences known es).map (·.target)) es' := by
  induction es generalizing known with
  | nil => simp [firstReferences]
  | cons e rest ih =>
    rw [List.cons_append, firstReferences, firstReferences]
    by_cases h : e.target ∈ known
    · rw [if_pos h, if_pos h, ih]
    · rw [if_neg h, if_neg h, ih, List.map_cons, List.append_assoc, List.singleton_append,
        List.cons_append]

theorem names_extendAll (locations : List Location) (members : List Member) (es : List Entry) :
    names (extendAll locations members es)
      = names members ++ (firstReferences (names members) es).map (·.target) := by
  rw [extendAll, names_append]
  refine congrArg (names members ++ ·) ?_
  rw [names, List.map_map]
  rfl

/-- A first reference is the first entry that leads to its target. -/
theorem find?_eq_some_of_mem_firstReferences {known : List String} {es : List Entry} {e : Entry}
    (h : e ∈ firstReferences known es) : es.find? (·.target = e.target) = some e := by
  induction es generalizing known with
  | nil => cases h
  | cons e' rest ih =>
    have hnew := target_notMem_of_mem_firstReferences h
    unfold firstReferences at h
    split at h
    · next hknown =>
      have hne : e'.target ≠ e.target := fun he => hnew (he ▸ hknown)
      rw [List.find?_cons_of_neg (by simpa using hne)]
      exact ih h
    · rcases List.mem_cons.mp h with rfl | h
      · exact List.find?_cons_of_pos (by simp)
      · have hne : e'.target ≠ e.target := by
          intro he
          refine target_notMem_of_mem_firstReferences h (List.mem_append_right _ ?_)
          exact List.mem_singleton.mpr he.symm
        rw [List.find?_cons_of_neg (by simpa using hne)]
        exact ih h

/-! ## Resolving with known states -/

section Validate

variable {locations : List Location} {states : List String}

/-- An entry adds the same member, unless it leads to an unknown state. -/
theorem newMember_eq_verdict {e : Entry} {m : Member}
    (h : newMember ⟨locations, none⟩ e = .ok m) :
    (newMember ⟨locations, some states⟩ e).mapError (DocumentFault.inAreas e.line)
      = verdict m ([e].find? (leadsToUnknown states)) := by
  obtain ⟨kind, target, line, alternatives⟩ := e
  cases kind with
  | anchor => cases h
  | state =>
    cases h
    by_cases hknown : target ∈ states
    · simp [newMember, leadsToUnknown, verdict, hknown, Except.mapError]
    · simp [newMember, leadsToUnknown, verdict, hknown, Except.mapError]
  | pickup => exact congrArg (Except.mapError (DocumentFault.inAreas line)) h
  | quest => exact congrArg (Except.mapError (DocumentFault.inAreas line)) h

/-- **One step.**  An entry is resolved as without known states, unless it is the first reference to an
unknown one. -/
theorem resolve_eq_verdict {members : List Member} {e : Entry} {p : List Member × Nat}
    (h : resolve ⟨locations, none⟩ members e = .ok p) :
    resolve ⟨locations, some states⟩ members e
      = verdict p ((firstReferences (names members) [e]).find? (leadsToUnknown states)) := by
  unfold resolve at h ⊢
  cases hf : find? members e.target with
  | some found =>
    have hknown : e.target ∈ names members := by
      by_contra hnew
      rw [find?_eq_none_iff.mpr hnew] at hf
      cases hf
    rw [hf] at h
    rw [firstReferences, if_pos hknown]
    exact h
  | none =>
    have hnew : e.target ∉ names members := find?_eq_none_iff.mp hf
    rw [hf] at h
    obtain ⟨m, hm, hp⟩ := Except.bind_eq_ok_iff.mp h
    cases hp
    rw [firstReferences, if_neg hnew]
    show ((newMember ⟨locations, some states⟩ e).mapError _).map
      (fun m => (members ++ [m], members.length)) = _
    rw [newMember_eq_verdict (Except.mapError_eq_ok_iff.mp hm), map_verdict]
    rfl

/-- **A run** is as without known states, unless an entry is the first reference to an unknown one. -/
theorem resolveAll_eq_verdict {members : List Member} {es : List Entry}
    {p : List Member × List Nat} (hd : Distinct members)
    (h : resolveAll ⟨locations, none⟩ members es = .ok p) :
    resolveAll ⟨locations, some states⟩ members es
      = verdict p ((firstReferences (names members) es).find? (leadsToUnknown states)) := by
  induction es generalizing members p with
  | nil => exact h
  | cons e rest ih =>
    rw [resolveAll] at h ⊢
    obtain ⟨⟨members', i⟩, hstep, h⟩ := Except.bind_eq_ok_iff.mp h
    obtain ⟨⟨members'', is⟩, hrest, hp⟩ := Except.bind_eq_ok_iff.mp h
    cases hp
    obtain ⟨-, -, hextend, -⟩ := (resolve_eq_ok_iff hd).mp hstep
    have hextend : members' = extendAll locations members [e] := by
      rw [hextend, extendAll_cons, extendAll_nil]
    have hd' : Distinct members' := hextend ▸ hd.extendAll locations [e]
    have hfirst : firstReferences (names members) (e :: rest)
        = firstReferences (names members) [e] ++ firstReferences (names members') rest := by
      rw [hextend, names_extendAll]
      exact firstReferences_append _ [e] rest
    rw [hfirst, List.find?_append]
    refine bind_eq_verdict (resolve_eq_verdict hstep) ?_
    show (resolveAll ⟨locations, some states⟩ members' rest).map (fun q => (q.1, i :: q.2)) = _
    rw [ih hd' hrest, map_verdict]

/-- All anchors together. -/
theorem link_eq_verdict {setting : Difficulty} {members : List Member} {ds : List Declaration}
    {p : List Member × List (List Nat)} (hd : Distinct members)
    (h : link ⟨locations, none⟩ setting members ds = .ok p) :
    link ⟨locations, some states⟩ setting members ds = verdict p
      ((firstReferences (names members) (Areas.survivors setting ds)).find?
        (leadsToUnknown states)) := by
  induction ds generalizing members p with
  | nil => exact h
  | cons d rest ih =>
    rw [link] at h ⊢
    obtain ⟨⟨members', targets⟩, hfirst, h⟩ := Except.bind_eq_ok_iff.mp h
    obtain ⟨⟨members'', others⟩, hrest, hp⟩ := Except.bind_eq_ok_iff.mp h
    cases hp
    obtain ⟨-, hextend, -⟩ := (resolveAll_eq_ok_iff hd).mp hfirst
    have hextend : members' = extendAll locations members (d.survivors setting) := hextend
    have hd' : Distinct members' := hextend ▸ hd.extendAll locations _
    have hsurvivors : firstReferences (names members) (Areas.survivors setting (d :: rest))
        = firstReferences (names members) (d.survivors setting)
          ++ firstReferences (names members') (Areas.survivors setting rest) := by
      rw [hextend, names_extendAll]
      exact firstReferences_append _ (d.survivors setting) (Areas.survivors setting rest)
    rw [hsurvivors, List.find?_append]
    refine bind_eq_verdict (resolveAll_eq_verdict hd hfirst) ?_
    show (link ⟨locations, some states⟩ setting members' rest).map
      (fun q => (q.1, targets :: q.2)) = _
    rw [ih hd' hrest, map_verdict]

/-- **The node table with known states**, if there is one without. -/
theorem build_eq_verdict {setting : Difficulty} {ds : List Declaration} {nodes : List Node}
    (h : build ⟨locations, none⟩ setting ds = .ok nodes) :
    build ⟨locations, some states⟩ setting ds = verdict nodes
      ((firstReferences (ds.map (·.name)) (Areas.survivors setting ds)).find?
        (leadsToUnknown states)) := by
  have hlink := ((build_readsAs _ _ _ _).mp h).1
  unfold build at h ⊢
  rw [repeated?_eq_none_iff.mpr ⟨by simp, hlink.nodup⟩] at h ⊢
  obtain ⟨p, hp, hnodes⟩ := Except.map_eq_ok_iff.mp
    (show (link ⟨locations, none⟩ setting (ds.map anchor) ds).map (fun p => number p.1 p.2)
      = .ok nodes from h)
  show (link ⟨locations, some states⟩ setting (ds.map anchor) ds).map (fun p => number p.1 p.2) = _
  rw [link_eq_verdict hlink.distinct hp, map_verdict, hnodes, names_map_anchor]

/-! ## The first unknown state -/

/-- The first unknown state of a table and the first entry that leads to an unknown state are one. -/
theorem map_toMember_find?_tableOf (locations : List Location) (states : List String)
    (setting : Difficulty) (ds : List Declaration) :
    ((tableOf locations setting ds).find? (isUnknown states)).map Node.toMember =
      ((firstReferences (ds.map (·.name)) (Areas.survivors setting ds)).find?
        (leadsToUnknown states)).map (leaf locations) := by
  let unknown : Member → Bool := fun m => m.kind = .state ∧ m.identifier ∉ states
  have hnodes : isUnknown states = unknown ∘ Node.toMember := rfl
  have hleaves : leadsToUnknown states = unknown ∘ leaf locations := rfl
  have hanchors : (ds.map anchor).find? unknown = none := by
    rw [List.find?_eq_none]
    intro m hm
    obtain ⟨d, -, rfl⟩ := List.mem_map.mp hm
    simp [unknown, anchor]
  rw [hnodes, ← List.find?_map, tableOf, map_toMember_number, membersOf, extendAll,
    List.find?_append, hanchors, Option.none_or, names_map_anchor, List.find?_map, hleaves]

end Validate

/-- **The lowest unknown state** of a node table: no other state that is not among these has a lower
index. -/
structure IsLowestUnknown (states : List String) (nodes : List Node) (n : Node) : Prop where
  mem : n ∈ nodes
  kind : n.kind = .state
  unknown : n.identifier ∉ states
  lowest : ∀ m ∈ nodes, m.kind = .state → m.identifier ∉ states → n.index ≤ m.index

/-- Of a table whose nodes have their places as indices, the lowest unknown state is the first. -/
theorem isLowestUnknown_of_find? {states : List String} {nodes : List Node} {n : Node}
    (hindex : ∀ i (h : i < nodes.length), nodes[i].index = i)
    (h : nodes.find? (isUnknown states) = some n) : IsLowestUnknown states nodes n := by
  obtain ⟨hunknown, i, hi, rfl, hbefore⟩ := List.find?_eq_some_iff_getElem.mp h
  obtain ⟨hkind, hname⟩ := of_decide_eq_true hunknown
  refine ⟨List.getElem_mem hi, hkind, hname, ?_⟩
  intro m hm hkind' hname'
  obtain ⟨j, hj, rfl⟩ := List.mem_iff_getElem.mp hm
  rw [hindex, hindex, Int.ofNat_le]
  by_contra hlt
  have hnot := hbefore j (Nat.not_le.mp hlt)
  simp [isUnknown, hkind', hname'] at hnot

theorem find?_isUnknown_eq_none_iff {states : List String} {nodes : List Node} :
    nodes.find? (isUnknown states) = none ↔
      ∀ n ∈ nodes, n.kind = .state → n.identifier ∈ states := by
  rw [List.find?_eq_none]
  refine forall₂_congr fun n _ => ?_
  simp [isUnknown]

/-- What can be linked with known states can be linked without. -/
theorem Linkable.of_validated {locations : List Location} {states : Option (List String)}
    {setting : Difficulty} {ds : List Declaration} (h : Linkable ⟨locations, states⟩ setting ds) :
    Linkable ⟨locations, none⟩ setting ds := by
  refine ⟨h.nodup, h.consistent.known, ?_, h.consistent.agree⟩
  intro e he hnew
  have hadd := h.consistent.fresh e he hnew
  unfold CanAdd at hadd ⊢
  cases hkind : e.kind with
  | state => exact fun _ hnone => by cases hnone
  | _ =>
    rw [hkind] at hadd
    exact hadd

end AreaAtlas.NodeTable

namespace AreaAtlas

open NodeTable (IsLowestUnknown)

theorem DocumentFault.message_unknownState (line : Nat) (name : String) :
    (DocumentFault.inAreas line (.unknownState name)).message
      = "areas line " ++ toString line ++ ": unknown state " ++ name := by
  have hplace : "areas" ++ " line " = "areas line " := by decide
  have hcause : ": " ++ "unknown state " = ": unknown state " := by decide
  show "areas" ++ " line " ++ toString line ++ ": " ++ ("unknown state " ++ name) = _
  rw [hplace, ← hcause]
  simp only [String.append_assoc]

/-- What documents give with known states, if they give a node table without. -/
theorem Logic.read_eq_verdict {areas locations states : String} {setting : Difficulty} {logic : Logic}
    (h : Logic.read areas locations states setting false = .ok logic) :
    Logic.read areas locations states setting true =
      ((NodeTable.verdict logic ((NodeTable.firstReferences (logic.declarations.map (·.name))
        (Areas.survivors setting logic.declarations)).find?
          (NodeTable.leadsToUnknown logic.states))).mapError Fault.document) := by
  unfold Logic.read at h ⊢
  obtain ⟨rows, hrows, h⟩ := Except.bind_eq_ok_iff.mp h
  obtain ⟨known, hknown, h⟩ := Except.bind_eq_ok_iff.mp h
  obtain ⟨ds, hds, h⟩ := Except.bind_eq_ok_iff.mp h
  obtain ⟨nodes, hnodes, h⟩ := Except.bind_eq_ok_iff.mp h
  cases h
  rw [hrows, hknown, hds]
  show ((NodeTable.build ⟨rows, some known⟩ setting ds).mapError Fault.document).map
    (fun nodes => (⟨ds, rows, known, nodes⟩ : Logic)) = _
  rw [NodeTable.build_eq_verdict (Except.mapError_eq_ok_iff.mp hnodes)]
  cases (NodeTable.firstReferences (ds.map (·.name)) (Areas.survivors setting ds)).find?
      (NodeTable.leadsToUnknown known) with
  | none => rfl
  | some e => rfl

/-- **Reading with known states refuses the lowest unknown state, and nothing else that is read without.**
What is read with known states is read without.  If documents are read without, they are read with known
states exactly if the state table names every state of the node table; otherwise the fault is on the line
of the first surviving entry that leads to the lowest state that it does not name. -/
theorem Logic.read_validated {areas locations states : String} {setting : Difficulty} :
    (∀ logic, Logic.read areas locations states setting true = .ok logic →
      Logic.read areas locations states setting false = .ok logic) ∧
    ∀ logic, Logic.read areas locations states setting false = .ok logic →
      readStates states.toList = .ok logic.states ∧
      ((∃ validated, Logic.read areas locations states setting true = .ok validated) ↔
        ∀ n ∈ logic.nodes, n.kind = .state → n.identifier ∈ logic.states) ∧
      ((∃ n ∈ logic.nodes, n.kind = .state ∧ n.identifier ∉ logic.states) →
        ∃ n e, IsLowestUnknown logic.states logic.nodes n ∧
          (Areas.survivorsIn setting (Areas.logicalLines areas.toList)).find?
            (·.target = n.identifier) = some e ∧
          Logic.read areas locations states setting true
            = .error (.document (.inAreas e.line (.unknownState n.identifier))) ∧
          (DocumentFault.inAreas e.line (.unknownState n.identifier)).message
            = "areas line " ++ toString e.line ++ ": unknown state " ++ n.identifier) := by
  constructor
  · intro logic h
    obtain ⟨hlocations, hstates, hgrammar, hds, hlink, hnodes⟩ := Logic.read_eq_ok_iff.mp h
    exact Logic.read_eq_ok_iff.mpr ⟨hlocations, hstates, hgrammar, hds, hlink.of_validated, hnodes⟩
  · intro logic h
    obtain ⟨-, hstates, hgrammar, hds, hlink, hnodes⟩ := Logic.read_eq_ok_iff.mp h
    have hread := Logic.read_eq_verdict h
    have hfirst := NodeTable.map_toMember_find?_tableOf logic.locations logic.states setting
      logic.declarations
    have hindex : ∀ i (hi : i < logic.nodes.length), logic.nodes[i].index = i := by
      rw [hnodes]
      exact @NodeTable.index_eq_of_tableOf ⟨logic.locations, none⟩ setting logic.declarations
    rw [← hnodes] at hfirst
    refine ⟨hstates, ?_, ?_⟩
    · rw [← NodeTable.find?_isUnknown_eq_none_iff, ← @Option.map_eq_none_iff _ _ _ Node.toMember,
        hfirst, Option.map_eq_none_iff, hread]
      simp only [Except.mapError_eq_ok_iff, NodeTable.verdict_eq_ok_iff, exists_and_left, exists_eq,
        and_true]
    · rintro ⟨m, hm, hkind, hname⟩
      cases hn : logic.nodes.find? (NodeTable.isUnknown logic.states) with
      | none => exact absurd (NodeTable.find?_isUnknown_eq_none_iff.mp hn m hm hkind) hname
      | some n =>
        rw [hn] at hfirst
        obtain ⟨e, he, hleaf⟩ := Option.map_eq_some_iff.mp hfirst.symm
        have htarget : e.target = n.identifier := congrArg NodeTable.Member.identifier hleaf
        refine ⟨n, e, NodeTable.isLowestUnknown_of_find? hindex hn, ?_, ?_,
          DocumentFault.message_unknownState _ _⟩
        · rw [Areas.survivorsIn_eq hgrammar, ← hds, ← htarget]
          exact NodeTable.find?_eq_some_of_mem_firstReferences (List.mem_of_find?_eq_some he)
        · rw [hread, he, ← htarget]
          rfl

/-- A state whose first entry is pruned, and two more. -/
def Areas.threeStates : String :=
  "anchor A:\n  state Low: impossible\n  state Known: free\n  state High: free\n" ++
    "anchor B:\n  state Low:\n    free\n  state High: free\n"

theorem Logic.read_validated_threeStates :
    (∃ logic, Logic.read "anchor A:\n  state Known: free\n" "" "Known\n" .moki true = .ok logic ∧
      Logic.read "anchor A:\n  state Known: free\n" "" "Known\n" .moki false = .ok logic) ∧
    ∃ logic n e, Logic.read Areas.threeStates "" "Known\n" .unrestricted false = .ok logic ∧
      logic.nodes.map (fun n => (n.identifier, n.index))
        = [("A", 0), ("B", 1), ("Known", 2), ("High", 3), ("Low", 4)] ∧
      (∃ n ∈ logic.nodes, n.kind = .state ∧ n.identifier ∉ logic.states) ∧
      IsLowestUnknown logic.states logic.nodes n ∧
      (Areas.survivorsIn .unrestricted (Areas.logicalLines Areas.threeStates.toList)).find?
        (·.target = n.identifier) = some e ∧
      Logic.read Areas.threeStates "" "Known\n" .unrestricted true
        = .error (.document (.inAreas e.line (.unknownState n.identifier))) ∧
      e.line = 4 ∧ n.identifier = "High" := by
  have hvalidated : ((Logic.read "anchor A:\n  state Known: free\n" "" "Known\n" .moki true).map
      fun _ => ()) = .ok () := by
    decide +kernel
  have hread : (Logic.read Areas.threeStates "" "Known\n" .unrestricted false).map
      (fun logic => (logic.nodes.map (fun n => (n.identifier, n.index)),
        logic.nodes.any fun n => n.kind = .state ∧ n.identifier ∉ logic.states))
      = .ok ([("A", 0), ("B", 1), ("Known", 2), ("High", 3), ("Low", 4)], true) := by
    decide +kernel
  have hrefused : ((Logic.read Areas.threeStates "" "Known\n" .unrestricted true).map fun _ => ())
      = .error (.document (.inAreas 4 (.unknownState "High"))) := by
    decide +kernel
  obtain ⟨logic', hlogic', -⟩ := Except.map_eq_ok_iff.mp hvalidated
  obtain ⟨logic, hlogic, hpair⟩ := Except.map_eq_ok_iff.mp hread
  obtain ⟨hnodes, hany⟩ := Prod.mk.inj hpair
  have hunknown : ∃ n ∈ logic.nodes, n.kind = .state ∧ n.identifier ∉ logic.states := by
    simpa using hany
  obtain ⟨n, e, hlowest, hentry, hfault, -⟩ := (Logic.read_validated.2 logic hlogic).2.2 hunknown
  have hsame : DocumentFault.inAreas e.line (.unknownState n.identifier)
      = .inAreas 4 (.unknownState "High") := by
    rw [hfault] at hrefused
    exact Fault.document.inj (Except.error.inj hrefused)
  obtain ⟨-, hline, hcause⟩ := DocumentFault.mk.inj hsame
  exact ⟨⟨logic', hlogic', Logic.read_validated.1 logic' hlogic'⟩, logic, n, e, hlogic, hnodes,
    hunknown, hlowest, hentry, hfault, hline, Cause.unknownState.inj hcause⟩

end AreaAtlas
