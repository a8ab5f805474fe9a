import AreaAtlas.NodeTable
import AreaAtlas.Proofs.Reading
import Mathlib.Data.List.Nodup

/-!
# Resolving the targets of entries

Entries are resolved one after the other, and an entry may add a member that later ones find.  Still the
order decides nothing but the order of the members added: `resolveAll_eq_ok_iff` gives the outcome of a
run in closed form.  A run succeeds exactly if its entries agree with the members before it and with each
other, said without a look at the run; it adds a leaf for the first reference to each new name; and it
gives each entry the place of its name among all members.
-/

namespace AreaAtlas.NodeTable

/-- The names of members, in order. -/
def names (members : List Member) : List String :=
  members.map (·.identifier)

@[simp] theorem names_append (members others : List Member) :
    names (members ++ others) = names members ++ names others :=
  List.map_append

@[simp] theorem length_names (members : List Member) : (names members).length = members.length :=
  List.length_map _

/-- No two members have the same name. -/
def Distinct (members : List Member) : Prop :=
  (names members).Nodup

theorem mem_names_of_mem {members : List Member} {m : Member} (h : m ∈ members) :
    m.identifier ∈ names members :=
  List.mem_map_of_mem h

/-- Members of one name are one member. -/
theorem Distinct.eq_of_identifier_eq {members : List Member} (hd : Distinct members) {m m' : Member}
    (h : m ∈ members) (h' : m' ∈ members) (he : m.identifier = m'.identifier) : m = m' :=
  List.inj_on_of_nodup_map hd h h' he

theorem find?_eq_none_iff {members : List Member} {identifier : String} :
    find? members identifier = none ↔ identifier ∉ names members := by
  unfold find? names
  cases hi : members.findIdx? (·.identifier == identifier) with
  | none =>
    have := List.findIdx?_eq_none_iff.mp hi
    simpa using this
  | some i =>
    obtain ⟨hlt, hp, -⟩ := List.findIdx?_eq_some_iff_getElem.mp hi
    simp only [Option.bind_some, List.getElem?_eq_getElem hlt, Option.map_some, reduceCtorEq,
      false_iff, not_not]
    rw [← beq_iff_eq.mp hp]
    exact mem_names_of_mem (List.getElem_mem hlt)

/-- What is found under a name is the member of that name, with its place among the names. -/
theorem find?_eq_some {members : List Member} {identifier : String} {i : Nat} {m : Member}
    (h : find? members identifier = some (i, m)) :
    members[i]? = some m ∧ m.identifier = identifier ∧ i = (names members).idxOf identifier := by
  unfold find? at h
  obtain ⟨j, hj, h⟩ := Option.bind_eq_some_iff.mp h
  obtain ⟨n, hn, he⟩ := Option.map_eq_some_iff.mp h
  cases he
  obtain ⟨hlt, hp, hbefore⟩ := List.findIdx?_eq_some_iff_getElem.mp hj
  rw [List.getElem?_eq_getElem hlt] at hn
  cases hn
  refine ⟨List.getElem?_eq_getElem hlt, beq_iff_eq.mp hp, ?_⟩
  -- both indices are the first at which the name stands
  rw [names, List.idxOf, List.findIdx_map]
  have := (List.findIdx?_eq_some_iff_findIdx_eq.mp hj).2
  rw [← this]
  rfl

/-! ## Leaves -/

/-- The kinds that the location table places are kinds of leaves. -/
theorem ne_anchor_of_placed {kind : NodeKind} (h : kind = .pickup ∨ kind = .quest) :
    kind ≠ .anchor := by
  rcases h with rfl | rfl
  · exact NodeKind.noConfusion
  · exact NodeKind.noConfusion

/-- Whether an entry may add a member: anchors are never added, locations have to be in the register,
and so have states if they are looked at. -/
def CanAdd (register : Register) (e : Areas.Entry) : Prop :=
  match e.kind with
  | .anchor => False
  | .state => ∀ states ∈ register.states, e.target ∈ states
  | .pickup | .quest => ∃ location ∈ register.locations, location.identifier = e.target

/-- The position of the target of an entry that is a leaf: that of its location on the map. -/
def leafPosition (locations : List Location) (e : Areas.Entry) : Option Position :=
  match e.kind with
  | .anchor | .state => none
  | .pickup | .quest =>
    (locations.find? (·.identifier == e.target)).bind (·.mapPosition)

/-- The member that an entry adds. -/
def leaf (locations : List Location) (e : Areas.Entry) : Member :=
  ⟨e.kind, e.target, leafPosition locations e⟩

/-- A pickup or a quest is added if a location places it. -/
theorem newMember_eq_ok_iff_of_placed {register : Register} {e : Areas.Entry} {m : Member}
    (hkind : e.kind = .pickup ∨ e.kind = .quest) :
    newMember register e = .ok m ↔
      (∃ location ∈ register.locations, location.identifier = e.target) ∧
        m = ⟨e.kind, e.target,
          (register.locations.find? (·.identifier == e.target)).bind (·.mapPosition)⟩ := by
  cases hf : register.locations.find? (·.identifier == e.target) with
  | none =>
    have hnone := List.find?_eq_none.mp hf
    have hadd : newMember register e = .error (.unknownLocation e.target) := by
      rcases hkind with hkind | hkind
      · simp [newMember, hkind, hf]
      · simp [newMember, hkind, hf]
    rw [hadd]
    simp only [reduceCtorEq, false_iff, not_and]
    rintro ⟨location, hl, hname⟩
    exact absurd (beq_iff_eq.mpr hname) (hnone location hl)
  | some location =>
    have hl := List.mem_of_find?_eq_some hf
    have hname : location.identifier = e.target := by simpa using List.find?_some hf
    have hadd : newMember register e = .ok ⟨e.kind, e.target, location.mapPosition⟩ := by
      rcases hkind with hkind | hkind
      · simp [newMember, hkind, hf]
      · simp [newMember, hkind, hf]
    rw [hadd, Except.ok.injEq, Option.bind_some]
    constructor
    · rintro rfl
      exact ⟨⟨location, hl, hname⟩, rfl⟩
    · rintro ⟨-, rfl⟩
      rfl

theorem newMember_eq_ok_iff {register : Register} {e : Areas.Entry} {m : Member} :
    newMember register e = .ok m ↔ CanAdd register e ∧ m = leaf register.locations e := by
  obtain ⟨kind, target, line, alternatives⟩ := e
  cases kind with
  | anchor => simp [newMember, CanAdd]
  | state =>
    unfold newMember CanAdd leaf leafPosition
    dsimp only
    cases hs : register.states with
    | none => simp [eq_comm]
    | some states =>
      by_cases ht : target ∈ states
      · simp [ht, eq_comm]
      · simp [ht]
  | pickup => exact newMember_eq_ok_iff_of_placed (Or.inl rfl)
  | quest => exact newMember_eq_ok_iff_of_placed (Or.inr rfl)

theorem CanAdd.congr {register : Register} {e e' : Areas.Entry} (h : CanAdd register e)
    (hkind : e.kind = e'.kind) (htarget : e.target = e'.target) : CanAdd register e' := by
  unfold CanAdd at h ⊢
  rw [← hkind, ← htarget]
  exact h

/-! ## One entry -/

/-- The members after an entry has been resolved. -/
def extend (locations : List Location) (members : List Member) (e : Areas.Entry) : List Member :=
  if e.target ∈ names members then members else members ++ [leaf locations e]

/-- **One step.**  An entry leads to the member of its name if there is one, and otherwise adds it. -/
theorem resolve_eq_ok_iff {register : Register} {members members' : List Member} {e : Areas.Entry}
    {i : Nat} (hd : Distinct members) :
    resolve register members e = .ok (members', i) ↔
      (∀ m ∈ members, m.identifier = e.target → m.kind = e.kind) ∧
      (e.target ∉ names members → CanAdd register e) ∧
      members' = extend register.locations members e ∧
      i = (names members').idxOf e.target := by
  unfold resolve extend
  cases hf : find? members e.target with
  | none =>
    have hnew := find?_eq_none_iff.mp hf
    have hknown : ∀ m ∈ members, m.identifier = e.target → m.kind = e.kind := by
      intro m hm he
      exact absurd (he ▸ mem_names_of_mem hm) hnew
    have hidx : (names (members ++ [leaf register.locations e])).idxOf e.target
        = members.length := by
      rw [names_append, List.idxOf_append_of_notMem hnew, length_names]
      exact congrArg (members.length + ·) List.idxOf_cons_self
    simp only [bind_pure_comp, hnew, not_false_eq_true, true_implies, if_false]
    show ((newMember register e).mapError _).map (fun m => (members ++ [m], members.length))
      = .ok (members', i) ↔ _
    rw [Except.map_eq_ok_iff]
    simp only [Except.mapError_eq_ok_iff, newMember_eq_ok_iff]
    constructor
    · rintro ⟨m, ⟨hadd, rfl⟩, he⟩
      cases he
      exact ⟨hknown, hadd, rfl, hidx.symm⟩
    · rintro ⟨-, hadd, rfl, rfl⟩
      exact ⟨_, ⟨hadd, rfl⟩, by rw [hidx]⟩
  | some p =>
    obtain ⟨j, m⟩ := p
    obtain ⟨hj, hname, hidx⟩ := find?_eq_some hf
    have hm : m ∈ members := List.mem_of_getElem? hj
    have hmem : e.target ∈ names members := hname ▸ mem_names_of_mem hm
    -- the names are distinct, so the member that is found is the only one of this name
    have hknown : (∀ m ∈ members, m.identifier = e.target → m.kind = e.kind) ↔ m.kind = e.kind := by
      constructor
      · exact fun h => h m hm hname
      · intro h m' hm' hname'
        rw [hd.eq_of_identifier_eq hm' hm (hname'.trans hname.symm), h]
    rw [hknown]
    simp only [hmem, not_true_eq_false, false_implies, true_and, if_true]
    by_cases hkind : m.kind = e.kind
    · simp only [hkind, if_true, true_and, Except.ok.injEq, Prod.mk.injEq]
      constructor
      · rintro ⟨rfl, rfl⟩
        exact ⟨rfl, hidx⟩
      · rintro ⟨rfl, rfl⟩
        exact ⟨rfl, hidx⟩
    · simp only [hkind, if_false, false_and, iff_false]
      split
      · simp
      · simp

theorem Distinct.extend {members : List Member} (hd : Distinct members) (locations : List Location)
    (e : Areas.Entry) : Distinct (extend locations members e) := by
  unfold NodeTable.extend
  split
  · exact hd
  · next hnew =>
    unfold Distinct
    rw [names_append]
    refine List.nodup_append.mpr ⟨hd, List.nodup_singleton _, ?_⟩
    intro a ha b hb
    rw [List.mem_singleton.mp hb]
    rintro rfl
    exact hnew ha

/-! ## A run -/

/-- The entries that name a target for the first time, some names being known. -/
def firstReferences (known : List String) : List Areas.Entry → List Areas.Entry
  | [] => []
  | e :: rest =>
    if e.target ∈ known then firstReferences known rest
    else e :: firstReferences (known ++ [e.target]) rest

/-- The members after a run. -/
def extendAll (locations : List Location) (members : List Member) (es : List Areas.Entry) :
    List Member :=
  members ++ (firstReferences (names members) es).map (leaf locations)

theorem extendAll_nil (locations : List Location) (members : List Member) :
    extendAll locations members [] = members :=
  List.append_nil members

theorem extendAll_cons (locations : List Location) (members : List Member) (e : Areas.Entry)
    (rest : List Areas.Entry) :
    extendAll locations members (e :: rest) = extendAll locations (extend locations members e) rest := by
  unfold extendAll extend
  by_cases h : e.target ∈ names members
  · rw [firstReferences, if_pos h, if_pos h]
  · rw [firstReferences, if_neg h, if_neg h, names_append, List.map_cons, List.append_assoc,
      List.singleton_append]
    rfl

/-- Entries that can be resolved in a row: each agrees with the member of its name or may add one, and
those that lead to one name agree in its kind. -/
structure Consistent (register : Register) (members : List Member) (es : List Areas.Entry) :
    Prop where
  known : ∀ e ∈ es, ∀ m ∈ members, m.identifier = e.target → m.kind = e.kind
  fresh : ∀ e ∈ es, e.target ∉ names members → CanAdd register e
  agree : ∀ e ∈ es, ∀ e' ∈ es, e.target = e'.target → e.kind = e'.kind

theorem consistent_nil (register : Register) (members : List Member) :
    Consistent register members [] :=
  ⟨by simp, by simp, by simp⟩

theorem mem_extend_of_mem {locations : List Location} {members : List Member} {e : Areas.Entry}
    {m : Member} (h : m ∈ members) : m ∈ extend locations members e := by
  unfold extend
  split
  · exact h
  · exact List.mem_append_left _ h

theorem mem_extend {locations : List Location} {members : List Member} {e : Areas.Entry}
    {m : Member} (h : m ∈ extend locations members e) :
    m ∈ members ∨ e.target ∉ names members ∧ m = leaf locations e := by
  unfold extend at h
  split at h
  · exact Or.inl h
  · next hnew =>
    rcases List.mem_append.mp h with h | h
    · exact Or.inl h
    · exact Or.inr ⟨hnew, List.mem_singleton.mp h⟩

theorem mem_names_extend_iff {locations : List Location} {members : List Member} {e : Areas.Entry}
    {name : String} :
    name ∈ names (extend locations members e) ↔ name ∈ names members ∨ name = e.target := by
  unfold extend
  split
  · next hknown =>
    constructor
    · exact Or.inl
    · rintro (h | rfl)
      · exact h
      · exact hknown
  · rw [names_append, List.mem_append]
    exact or_congr Iff.rfl List.mem_singleton

/-- The name of an entry that has been resolved is known. -/
theorem target_mem_names_extend {locations : List Location} {members : List Member}
    {e : Areas.Entry} : e.target ∈ names (extend locations members e) :=
  mem_names_extend_iff.mpr (Or.inr rfl)

/-- An entry of the same name as the first one finds the member that the first one leads to, so it is
of the same kind. -/
theorem Consistent.kind_eq_of_extend {register : Register} {members : List Member}
    {e e' : Areas.Entry} {rest : List Areas.Entry}
    (h : Consistent register (extend register.locations members e) rest)
    (hknown : ∀ m ∈ members, m.identifier = e.target → m.kind = e.kind) (he' : e' ∈ rest)
    (htarget : e.target = e'.target) : e.kind = e'.kind := by
  by_cases hmem : e.target ∈ names members
  · obtain ⟨m, hm, hname⟩ := List.mem_map.mp hmem
    rw [← hknown m hm hname]
    exact h.known e' he' m (mem_extend_of_mem hm) (hname.trans htarget)
  · refine h.known e' he' (leaf register.locations e) ?_ htarget
    rw [extend, if_neg hmem]
    exact List.mem_append_right _ List.mem_cons_self

/-- Whether entries are consistent is settled one by one. -/
theorem consistent_cons_iff {register : Register} {members : List Member} {e : Areas.Entry}
    {rest : List Areas.Entry} :
    Consistent register members (e :: rest) ↔
      (∀ m ∈ members, m.identifier = e.target → m.kind = e.kind) ∧
      (e.target ∉ names members → CanAdd register e) ∧
      Consistent register (extend register.locations members e) rest := by
  constructor
  · intro h
    refine ⟨h.known e List.mem_cons_self, h.fresh e List.mem_cons_self, ?_, ?_, ?_⟩
    · intro e' he' m hm hname
      rcases mem_extend hm with hm | ⟨-, rfl⟩
      · exact h.known e' (List.mem_cons_of_mem _ he') m hm hname
      · exact h.agree e List.mem_cons_self e' (List.mem_cons_of_mem _ he') hname
    · intro e' he' hnew
      apply h.fresh e' (List.mem_cons_of_mem _ he')
      exact fun hmem => hnew (mem_names_extend_iff.mpr (Or.inl hmem))
    · intro e' he' e'' he''
      exact h.agree e' (List.mem_cons_of_mem _ he') e'' (List.mem_cons_of_mem _ he'')
  · rintro ⟨hknown, hadd, h⟩
    have hagree : ∀ e' ∈ rest, e.target = e'.target → e.kind = e'.kind :=
      fun e' he' => h.kind_eq_of_extend hknown he'
    refine ⟨?_, ?_, ?_⟩
    · intro e' he' m hm hname
      rcases List.mem_cons.mp he' with rfl | he'
      · exact hknown m hm hname
      · exact h.known e' he' m (mem_extend_of_mem hm) hname
    · intro e' he' hnew
      rcases List.mem_cons.mp he' with rfl | he'
      · exact hadd hnew
      · by_cases htarget : e.target = e'.target
        · -- the first entry could add the name, so this one could have, too
          exact (hadd (htarget ▸ hnew)).congr (hagree e' he' htarget) htarget
        · apply h.fresh e' he'
          intro hmem
          rcases mem_names_extend_iff.mp hmem with hmem | hname
          · exact hnew hmem
          · exact htarget hname.symm
    · intro e' he' e'' he'' htarget
      rcases List.mem_cons.mp he' with h' | he'
      · rcases List.mem_cons.mp he'' with h'' | he''
        · rw [h', h'']
        · rw [h'] at htarget ⊢
          exact hagree e'' he'' htarget
      · rcases List.mem_cons.mp he'' with h'' | he''
        · rw [h''] at htarget ⊢
          exact (hagree e' he' htarget.symm).symm
        · exact h.agree e' he' e'' he'' htarget

/-- Members stay where they are when others are added. -/
theorem idxOf_names_extendAll {locations : List Location} {members : List Member}
    {es : List Areas.Entry} {name : String} (h : name ∈ names members) :
    (names (extendAll locations members es)).idxOf name = (names members).idxOf name := by
  rw [extendAll, names_append, List.idxOf_append_of_mem h]

/-- **A run in closed form.**  It succeeds exactly if its entries are consistent with the members, and
then gives each entry the place of its target's name. -/
theorem resolveAll_eq_ok_iff {register : Register} {members : List Member} (hd : Distinct members)
    {es : List Areas.Entry} {members' : List Member} {targets : List Nat} :
    resolveAll register members es = .ok (members', targets) ↔
      Consistent register members es ∧ members' = extendAll register.locations members es ∧
        targets = es.map fun e => (names members').idxOf e.target := by
  induction es generalizing members members' targets with
  | nil =>
    simp only [resolveAll, Except.ok.injEq, Prod.mk.injEq, consistent_nil, true_and, extendAll_nil,
      List.map_nil, eq_comm]
  | cons e rest ih =>
    have hd' := hd.extend register.locations e
    rw [consistent_cons_iff, extendAll_cons, resolveAll, Except.bind_eq_ok_iff]
    simp only [Except.bind_eq_ok_iff, Prod.exists, resolve_eq_ok_iff hd, pure, Except.pure,
      Except.ok.injEq, Prod.mk.injEq]
    constructor
    · rintro ⟨_, i, ⟨hknown, hadd, rfl, rfl⟩, members', others, hrest, rfl, rfl⟩
      obtain ⟨hcons, rfl, rfl⟩ := (ih hd').mp hrest
      refine ⟨⟨hknown, hadd, hcons⟩, rfl, ?_⟩
      -- the first target keeps its place while the others are resolved
      rw [List.map_cons, idxOf_names_extendAll target_mem_names_extend]
    · rintro ⟨⟨hknown, hadd, hcons⟩, rfl, rfl⟩
      refine ⟨_, _, ⟨hknown, hadd, rfl, rfl⟩, _, _, (ih hd').mpr ⟨hcons, rfl, rfl⟩, rfl, ?_⟩
      rw [List.map_cons, idxOf_names_extendAll target_mem_names_extend]

theorem extendAll_append (locations : List Location) (members : List Member)
    (es es' : List Areas.Entry) :
    extendAll locations members (es ++ es')
      = extendAll locations (extendAll locations members es) es' := by
  induction es generalizing members with
  | nil => rw [List.nil_append, extendAll_nil]
  | cons e rest ih => rw [List.cons_append, extendAll_cons, ih, ← extendAll_cons]

theorem consistent_append_iff {register : Register} {members : List Member}
    {es es' : List Areas.Entry} :
    Consistent register members (es ++ es') ↔
      Consistent register members es ∧
        Consistent register (extendAll register.locations members es) es' := by
  induction es generalizing members with
  | nil => simp only [List.nil_append, consistent_nil, true_and, extendAll_nil]
  | cons e rest ih =>
    simp only [List.cons_append, consistent_cons_iff, ih, extendAll_cons, and_assoc]

theorem Distinct.extendAll {members : List Member} (hd : Distinct members)
    (locations : List Location) (es : List Areas.Entry) :
    Distinct (extendAll locations members es) := by
  induction es generalizing members with
  | nil => rwa [extendAll_nil]
  | cons e rest ih =>
    rw [extendAll_cons]
    exact ih (hd.extend locations e)

theorem mem_names_extendAll {locations : List Location} {members : List Member}
    {es : List Areas.Entry} {name : String} (h : name ∈ names members) :
    name ∈ names (extendAll locations members es) := by
  rw [extendAll, names_append]
  exact List.mem_append_left _ h

/-- Every target is among the members in the end. -/
theorem target_mem_names_extendAll {locations : List Location} {members : List Member}
    {es : List Areas.Entry} {e : Areas.Entry} (h : e ∈ es) :
    e.target ∈ names (extendAll locations members es) := by
  induction es generalizing members with
  | nil => cases h
  | cons e' rest ih =>
    rw [extendAll_cons]
    rcases List.mem_cons.mp h with rfl | h
    · exact mem_names_extendAll target_mem_names_extend
    · exact ih h

/-! ### First references -/

theorem firstReferences_sublist (known : List String) (es : List Areas.Entry) :
    (firstReferences known es).Sublist es := by
  induction es generalizing known with
  | nil => exact List.Sublist.refl []
  | cons e rest ih =>
    unfold firstReferences
    split
    · exact (ih known).cons e
    · exact (ih _).cons_cons e

theorem target_notMem_of_mem_firstReferences {known : List String} {es : List Areas.Entry}
    {e : Areas.Entry} (h : e ∈ firstReferences known es) : e.target ∉ known := by
  induction es generalizing known with
  | nil => cases h
  | cons e' rest ih =>
    unfold firstReferences at h
    split at h
    · exact ih h
    · next hnew =>
      rcases List.mem_cons.mp h with rfl | h
      · exact hnew
      · exact fun hm => ih h (List.mem_append_left _ hm)

/-- The targets that are named for the first time are the targets that are not known, each once. -/
theorem map_target_firstReferences (known : List String) (es : List Areas.Entry) :
    (firstReferences known es).map (·.target)
      = ((es.map (·.target)).filter (· ∉ known)).eraseDups := by
  induction es generalizing known with
  | nil => rfl
  | cons e rest ih =>
    by_cases h : e.target ∈ known
    · rw [firstReferences, if_pos h, ih, List.map_cons, List.filter_cons_of_neg (by simpa using h)]
    · rw [firstReferences, if_neg h, List.map_cons, ih, List.map_cons,
        List.filter_cons_of_pos (by simpa using h), List.eraseDups_cons, List.filter_filter]
      -- both sides leave this name out of what follows, as known or as a duplicate
      refine congrArg _ (congrArg _ (List.filter_congr ?_))
      intro name _
      simp [and_comm, Bool.beq_eq_decide_eq]

end AreaAtlas.NodeTable
