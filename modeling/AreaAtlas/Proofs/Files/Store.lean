import AreaAtlas.Files.Store
import Mathlib.Data.String.Basic
import Mathlib.Data.List.Find

/-!
# Items of a store

The names of a path are taken off its text at the slashes, byte by byte.  Here they are given by the list
of its characters, `Path.names_eq`, so that a path can be followed without looking at bytes.  A plain name
is followed in one step, so it leads to what the working directory has under it.

What is at a place behind an operation on a store: setting an item and adding to a file leave the items at
other places, and moving leaves all but what is at and below the two places it is about.  Making a directory
takes nothing away, `isKept_makeDirectory`.
-/

namespace AreaAtlas.Path

/-! ## The names of a path -/

open String

/-- Splitting at a text of one character is splitting at the character. -/
theorem splitOnAux_slash (s : String) (b i : Pos.Raw) (done : List String) :
    splitOnAux s "/" b i 0 done = splitAux s (· == '/') b i done := by
  have hget : Pos.Raw.get "/" 0 = '/' := by decide
  have hnext : Pos.Raw.next "/" 0 = ⟨1⟩ := by decide
  have hend : Pos.Raw.atEnd "/" ⟨1⟩ = true := by decide
  fun_induction splitAux s (· == '/') b i done with
  | case1 b i done hi => rw [splitOnAux, if_pos hi]
  | case2 b i done hi hlt hc next ih =>
    -- a slash is one byte, so going back over it leads to where it stands
    have hback : (i.next s).unoffsetBy ⟨1⟩ = i := by
      have hsize : (Pos.Raw.get s i).utf8Size = 1 := by
        rw [beq_iff_eq.mp hc]
        decide
      show (⟨i.byteIdx + (Pos.Raw.get s i).utf8Size - 1⟩ : Pos.Raw) = i
      rw [hsize, Nat.add_sub_cancel]
    rw [splitOnAux, if_neg hi, hget, if_pos hc, hnext, if_pos hend, hback]
    exact ih
  | case3 b i done hi hlt hc ih =>
    rw [splitOnAux, if_neg hi, hget, if_neg hc]
    exact ih

/-- **The names of a path** are what stands between its slashes. -/
theorem names_eq (path : String) :
    names path = ((path.toList.splitOnP (· == '/')).map String.ofList).filter (· ≠ "") := by
  have hsplit : path.splitOn "/" = (path.toList.splitOnP (· == '/')).map String.ofList := by
    rw [← splitToList_of_valid]
    show (if ("/" == "") = true then [path] else splitOnAux path "/" 0 0 0 []) =
      splitAux path (· == '/') 0 0 []
    rw [if_neg (by decide), splitOnAux_slash]
  rw [names, hsplit]

/-- What follows the last slash of a path is its last name. -/
theorem getLast?_names {path name : String} {front : List Char}
    (hpath : path.toList = front ++ name.toList) (hfront : front ≠ [] → front.getLast? = some '/')
    (hname : name ≠ "") (hslash : '/' ∉ name.toList) : (names path).getLast? = some name := by
  have hsplit : name.toList.splitOnP (· == '/') = [name.toList] := by
    refine List.splitOnP_eq_singleton fun c hc => beq_eq_false_iff_ne.mpr ?_
    rintro rfl
    exact hslash hc
  have hpieces : ∃ pieces, path.toList.splitOnP (· == '/') = pieces ++ [name.toList] := by
    rw [hpath]
    rcases List.eq_nil_or_concat front with rfl | ⟨before, c, rfl⟩
    · exact ⟨[], hsplit⟩
    · have hc : c = '/' := by simpa using hfront
      refine ⟨before.splitOnP (· == '/'), ?_⟩
      rw [List.concat_eq_append, List.append_assoc, List.singleton_append,
        List.splitOnP_append_cons _ _ (by simpa using hc), hsplit]
  obtain ⟨pieces, hpieces⟩ := hpieces
  have hkept : [name].filter (· ≠ "") = [name] := by simp [hname]
  rw [names_eq, hpieces, List.map_append, List.map_singleton, String.ofList_toList, List.filter_append, hkept]
  exact List.getLast?_concat ..

/-- A step added to a path is its last name. -/
theorem getLast?_names_ofSteps {path name : String} (steps : List String) (hname : name ≠ "")
    (hslash : '/' ∉ name.toList) :
    (names (ofSteps (root path) (steps ++ [name]))).getLast? = some name := by
  have hroot : root path = "" ∨ (root path).toList.getLast? = some '/' := by
    unfold root
    dsimp only
    split
    · exact Or.inl rfl
    · split
      · exact Or.inr (by decide)
      · exact Or.inr (by decide)
  have htext : ∃ front : List Char, (root path ++ "/".intercalate (steps ++ [name])).toList
      = front ++ name.toList ∧ (front ≠ [] → front.getLast? = some '/') := by
    rw [String.toList_append]
    cases steps with
    | nil =>
      refine ⟨(root path).toList, by rw [List.nil_append, String.intercalate_singleton], fun hne => ?_⟩
      refine hroot.resolve_left fun hempty => hne ?_
      rw [hempty]
      rfl
    | cons step rest =>
      refine ⟨(root path).toList ++ ("/".intercalate (step :: rest)).toList ++ ['/'], ?_, fun _ => by simp⟩
      rw [String.intercalate_append_of_ne_nil (by simp) (by simp), String.intercalate_singleton]
      simp [String.toList_append]
  obtain ⟨front, htext, hfront⟩ := htext
  have hsome : (root path ++ "/".intercalate (steps ++ [name])).isEmpty = false := by
    rw [String.isEmpty_eq_false_iff]
    intro hempty
    rw [hempty] at htext
    exact hname (String.toList_inj.mp (List.append_eq_nil_iff.mp htext.symm).2)
  unfold ofSteps
  dsimp only
  rw [hsome]
  exact getLast?_names htext hfront hname hslash

theorem steps_dot : steps "." = [] := by
  rw [steps, names_eq]
  decide

end AreaAtlas.Path

namespace AreaAtlas.Files

/-! ## Stores -/

/-- A path of one name that an item can have. -/
structure IsPlain (name : String) : Prop where
  ne_empty : name ≠ ""
  ne_dot : name ≠ "."
  ne_dots : name ≠ ".."
  slash_notMem : '/' ∉ name.toList
  nul_notMem : '\x00' ∉ name.toList
  size_le : name.utf8ByteSize ≤ Store.maxNameLength

instance (name : String) : Decidable (IsPlain name) :=
  decidable_of_iff
    (name ≠ "" ∧ name ≠ "." ∧ name ≠ ".." ∧ '/' ∉ name.toList ∧ '\x00' ∉ name.toList ∧
      name.utf8ByteSize ≤ Store.maxNameLength)
    ⟨fun ⟨h₁, h₂, h₃, h₄, h₅, h₆⟩ => ⟨h₁, h₂, h₃, h₄, h₅, h₆⟩,
      fun ⟨h₁, h₂, h₃, h₄, h₅, h₆⟩ => ⟨h₁, h₂, h₃, h₄, h₅, h₆⟩⟩

namespace IsPlain

variable {name : String}

theorem isEmpty (h : IsPlain name) : name.isEmpty = false :=
  Bool.eq_false_iff.mpr fun hempty => h.ne_empty (String.isEmpty_iff.mp hempty)

theorem contains_nul (h : IsPlain name) : name.contains '\x00' = false := by
  rw [String.contains_char_eq]
  exact decide_eq_false h.nul_notMem

theorem isAbsolute (h : IsPlain name) : Path.isAbsolute name = false := by
  refine beq_eq_false_iff_ne.mpr fun hhead => h.slash_notMem ?_
  exact List.mem_of_mem_head? hhead

theorem endsInSlash (h : IsPlain name) : Path.endsInSlash name = false := by
  refine beq_eq_false_iff_ne.mpr fun hlast => h.slash_notMem ?_
  exact List.mem_of_getLast? hlast

theorem names (h : IsPlain name) : Path.names name = [name] := by
  have hslash : ∀ c ∈ name.toList, (c == '/') = false := by
    intro c hc
    refine beq_eq_false_iff_ne.mpr ?_
    rintro rfl
    exact h.slash_notMem hc
  rw [Path.names_eq, List.splitOnP_eq_singleton hslash, List.map_singleton, String.ofList_toList]
  exact List.filter_cons_of_pos (decide_eq_true h.ne_empty)

end IsPlain

namespace Location

variable {place source target below : Location}

theorem moved_append (source target below : Location) :
    moved (source ++ below) source target = target ++ below := by
  unfold moved
  rw [List.isPrefixOf?_eq_some_iff_append_eq.mpr rfl]

theorem moved_of_not_below (h : ¬source <+: place) : moved place source target = place := by
  unfold moved
  cases hbelow : source.isPrefixOf? place with
  | none => rfl
  | some below => exact absurd ⟨below, List.isPrefixOf?_eq_some_iff_append_eq.mp hbelow⟩ h

end Location

namespace Store

variable {store after : Store} {place other source target : Location} {name : String} {item : Item}

/-! ### Changes at a place -/

theorem item?_eq_none (hstanding : standing? place = none)
    (hitems : ∀ entry ∈ store.items, entry.1 ≠ place) : store.item? place = none := by
  have hfind : store.items.find? (·.1 == place) = none := by
    rw [List.find?_eq_none]
    intro entry hentry
    simpa using hitems entry hentry
  rw [item?, hstanding, hfind]
  rfl

theorem standing?_of_item?_eq_none (h : store.item? place = none) : standing? place = none :=
  (Option.or_eq_none_iff.mp h).1

theorem item?_remove_of_ne (h : place ≠ other) :
    (store.remove place).item? other = store.item? other := by
  have hfind : (store.items.filter (·.1 ≠ place)).find? (·.1 == other) =
      store.items.find? (·.1 == other) := by
    rw [List.find?_filter]
    congr 1
    funext entry
    by_cases hentry : entry.1 = other
    · simp [hentry, h.symm]
    · simp [hentry]
  rw [item?, remove, hfind]
  rfl

theorem item?_set_self (item : Item) (h : standing? place = none) :
    (store.set place item).item? place = some item := by
  unfold item? set
  dsimp only
  rw [h, List.find?_cons_of_pos (by simp)]
  rfl

/-- Setting an item leaves those at other places. -/
theorem item?_set_of_ne (item : Item) (h : place ≠ other) :
    (store.set place item).item? other = store.item? other := by
  refine Eq.trans ?_ (item?_remove_of_ne h)
  unfold item? set
  dsimp only
  rw [List.find?_cons_of_neg (by simpa using h)]
  rfl

/-! ### Moving -/

theorem item?_move (store : Store) (source target place : Location) :
    (store.move source target).item? place = (standing? place).or
      ((store.items.find? fun entry => entry.1.moved source target == place).map (·.2)) := by
  rw [item?, move, List.find?_map, Option.map_map]
  rfl

/-- Moving leaves what is not below either place. -/
theorem item?_move_of_not_below (hsource : ¬source <+: place) (htarget : ¬target <+: place) :
    (store.move source target).item? place = store.item? place := by
  rw [item?_move, item?]
  congr 3
  funext entry
  by_cases hentry : source <+: entry.1
  · obtain ⟨below, hbelow⟩ := hentry
    have hmoved : target ++ below ≠ place := fun heq => htarget ⟨below, heq⟩
    have hstays : entry.1 ≠ place := fun heq => hsource ⟨below, hbelow.trans heq⟩
    rw [← hbelow, Location.moved_append, hbelow, beq_false_of_ne hmoved, beq_false_of_ne hstays]
  · rw [Location.moved_of_not_below hentry]

theorem item?_move_source (hstanding : standing? source = none) (h : ¬target <+: source) :
    (store.move source target).item? source = none := by
  refine item?_eq_none hstanding ?_
  intro entry hentry
  obtain ⟨old, -, rfl⟩ := List.mem_map.mp hentry
  show old.1.moved source target ≠ source
  by_cases hold : source <+: old.1
  · obtain ⟨below, hbelow⟩ := hold
    rw [← hbelow, Location.moved_append]
    exact fun heq => h ⟨below, heq⟩
  · rw [Location.moved_of_not_below hold]
    rintro rfl
    exact hold List.prefix_rfl

theorem item?_move_target (hsource : standing? source = none) (htarget : standing? target = none)
    (hfree : ∀ entry ∈ store.items, entry.1 ≠ target) :
    (store.move source target).item? target = store.item? source := by
  rw [item?_move, item?, hsource, htarget]
  congr 2
  apply List.find?_congr
  intro entry hentry
  by_cases hold : source <+: entry.1
  · obtain ⟨below, hbelow⟩ := hold
    rw [← hbelow, Location.moved_append]
    cases below with
    | nil => rw [List.append_nil, List.append_nil, beq_self_eq_true, beq_self_eq_true]
    | cons name rest => rw [beq_false_of_ne (by simp), beq_false_of_ne (by simp)]
  · have hstays : entry.1 ≠ source := by
      rintro heq
      exact hold (heq ▸ List.prefix_rfl)
    rw [Location.moved_of_not_below hold, beq_false_of_ne (hfree entry hentry), beq_false_of_ne hstays]

/-- How moving ends, unless something is in the way. -/
theorem moveOver_cases (h : store.moveOver source target = some after) :
    store.item? source = none ∧ after = store ∨
      (store.item? source).isSome = true ∧ after = (store.remove target).move source target := by
  unfold moveOver at h
  split at h
  · next hsource => exact Or.inl ⟨Option.isNone_iff_eq_none.mp hsource, (Option.some.inj h).symm⟩
  · next hsource =>
    split at h
    · cases h
    · exact Or.inr ⟨by simpa [Option.isSome_iff_ne_none] using hsource, (Option.some.inj h).symm⟩

/-- **Nothing is moved** to a place that is too long, nor over a directory. -/
theorem moveOver_eq_none_iff : store.moveOver source target = none ↔
    (store.item? source).isSome = true ∧
      (isTooLong target = true ∨ store.item? target = some .directory) := by
  have hway : (isTooLong target || store.item? target == some .directory) = true ↔
      isTooLong target = true ∨ store.item? target = some .directory := by
    rw [Bool.or_eq_true, beq_iff_eq]
  unfold moveOver
  rw [← hway]
  cases store.item? source with
  | none => simp
  | some item => simp only [Option.isNone_some, Bool.false_eq_true, if_false, ite_eq_left_iff, reduceCtorEq,
      imp_false, not_not, Option.isSome_some, true_and]

section MoveOver

variable (h : store.moveOver source target = some after)

include h

theorem item?_moveOver_of_not_below (hsource : ¬source <+: place) (htarget : ¬target <+: place) :
    after.item? place = store.item? place := by
  obtain ⟨-, rfl⟩ | ⟨-, rfl⟩ := moveOver_cases h
  · rfl
  · rw [item?_move_of_not_below hsource htarget]
    apply item?_remove_of_ne
    rintro rfl
    exact htarget List.prefix_rfl

theorem item?_moveOver_source (hstanding : standing? source = none) (htarget : ¬target <+: source) :
    after.item? source = none := by
  obtain ⟨hnone, rfl⟩ | ⟨-, rfl⟩ := moveOver_cases h
  · exact hnone
  · exact item?_move_source hstanding htarget

theorem item?_moveOver_target (hsome : (store.item? source).isSome = true)
    (hsource : standing? source = none) (htarget : standing? target = none) (hne : target ≠ source) :
    after.item? target = store.item? source := by
  obtain ⟨hnone, -⟩ | ⟨-, rfl⟩ := moveOver_cases h
  · rw [hnone] at hsome
    cases hsome
  · rw [item?_move_target hsource htarget, item?_remove_of_ne hne]
    intro entry hentry
    simpa using (List.mem_filter.mp hentry).2

end MoveOver

/-! ### Files -/

theorem item?_openFile_of_ne (h : place ≠ other) :
    (store.openFile place).item? other = store.item? other := by
  unfold openFile
  split
  · rfl
  · exact item?_set_of_ne _ h

/-- A place where there is nothing gets an empty file. -/
theorem item?_openFile_self (h : store.item? place = none) :
    (store.openFile place).item? place = some (.file []) := by
  unfold openFile
  rw [h]
  exact item?_set_self _ (standing?_of_item?_eq_none h)

theorem openFile_eq_self (h : store.item? place = some item) : store.openFile place = store := by
  unfold openFile
  rw [h]
  rfl

theorem item?_append_of_ne (bytes : List UInt8) (h : place ≠ other) :
    (store.append place bytes).item? other = store.item? other := by
  unfold append
  split
  · exact item?_set_of_ne _ h
  · rfl

theorem item?_append_self {bytes : List UInt8} (hstanding : standing? place = none)
    (h : store.item? place = some (.file bytes)) (more : List UInt8) :
    (store.append place more).item? place = some (.file (bytes ++ more)) := by
  unfold append
  rw [h]
  exact item?_set_self _ hstanding

/-! ### Following names -/

/-- What the store has at the place that names lead to, if they lead to one. -/
def Shows (store : Store) : Target → Prop
  | .found place item => store.item? place = some item
  | .free place => store.item? place = none
  | .missing | .blocked | .tooLong => True

/-- **Where names lead is what the store has there.** -/
theorem shows_follow (store : Store) (place : Location) (names : List String) :
    store.Shows (store.follow place names) := by
  fun_induction follow store place names with
  | case1 place item hitem => exact hitem
  | case2 => trivial
  | case3 place rest hitem ih => exact ih
  | case4 place rest hitem hdot ih => exact ih
  | case5 => trivial
  | case6 place name rest hitem hdot hdots hlong next hsome ih => exact ih
  | case7 place name rest hitem hdot hdots hlong next hnone hempty =>
    show store.item? next = none
    simpa using hnone
  | case8 => trivial
  | case9 => trivial
  | case10 => trivial

theorem item?_of_follow_free {names : List String} (h : store.follow place names = .free other) :
    store.item? other = none := by
  have hshows := store.shows_follow place names
  rwa [h] at hshows

theorem item?_of_follow_found {names : List String} (h : store.follow place names = .found other item) :
    store.item? other = some item := by
  have hshows := store.shows_follow place names
  rwa [h] at hshows

/-- The place that names lead to has the last of them, unless that one leads back. -/
theorem getLast?_of_follow {names : List String} (hlast : names.getLast? = some name) (hdot : name ≠ ".")
    (hdots : name ≠ "..")
    (h : store.follow place names = .free other ∨ ∃ item, store.follow place names = .found other item) :
    other.getLast? = some name := by
  have hrest : ∀ {first : String} {rest : List String}, (first :: rest).getLast? = some name →
      first ≠ name → rest.getLast? = some name := by
    intro first rest hlast hfirst
    cases rest with
    | nil => exact absurd (Option.some.inj hlast) hfirst
    | cons second rest => exact (List.getLast?_cons_cons ..).symm.trans hlast
  fun_induction follow store place names with
  | case1 => cases hlast
  | case2 => cases hlast
  | case3 place rest hitem ih => exact ih (hrest hlast (Ne.symm hdot)) h
  | case4 place rest hitem hdot' ih => exact ih (hrest hlast (Ne.symm hdots)) h
  | case5 => simp at h
  | case6 place first rest hitem hdot' hdots' hlong next hsome ih =>
    cases rest with
    | cons second rest => exact ih ((List.getLast?_cons_cons ..).symm.trans hlast) h
    | nil =>
      have hnext : next.getLast? = some name := (List.getLast?_concat ..).trans hlast
      obtain hfree | ⟨item, hfound⟩ := h
      · unfold follow at hfree
        split at hfree <;> cases hfree
      · unfold follow at hfound
        split at hfound
        · obtain ⟨rfl, -⟩ := Target.found.inj hfound
          exact hnext
        · cases hfound
  | case7 place first rest hitem hdot' hdots' hlong next hnone hempty =>
    obtain rfl : rest = [] := List.isEmpty_iff.mp hempty
    obtain hfree | ⟨item, hfound⟩ := h
    · obtain rfl := Target.free.inj hfree
      exact (List.getLast?_concat ..).trans hlast
    · cases hfound
  | case8 => simp at h
  | case9 => simp at h
  | case10 => simp at h

/-! ### Making directories -/

/-- What is in a store is in another one as well. -/
def IsKept (store after : Store) : Prop :=
  ∀ place item, store.item? place = some item → after.item? place = some item

theorem isKept_enterDirectory {names : List String} {start : Location}
    (h : store.enterDirectory (store.follow start names) = .ok after) : store.IsKept after := by
  intro place item hitem
  cases hfollow : store.follow start names with
  | found other found =>
    rw [hfollow] at h
    cases found with
    | directory =>
      obtain rfl := Except.ok.inj h
      exact hitem
    | file bytes => cases h
  | free other =>
    rw [hfollow] at h
    obtain rfl := Except.ok.inj h
    rw [item?_set_of_ne _ _, hitem]
    rintro rfl
    rw [item?_of_follow_free hfollow] at hitem
    cases hitem
  | missing | blocked | tooLong =>
    rw [hfollow] at h
    cases h

/-- **Making a directory takes nothing away.** -/
theorem isKept_makeDirectory (store : Store) (root : String) (start : Location) (steps : List String) :
    store.IsKept (store.makeDirectory root start steps).1 := by
  induction steps generalizing store with
  | nil => exact fun _ _ hitem => hitem
  | cons name before ih =>
    unfold makeDirectory
    dsimp only
    split
    · exact fun _ _ hitem => hitem
    · split
      · exact fun _ _ hitem => hitem
      · split
        · next hentered => exact isKept_enterDirectory hentered
        · obtain ⟨⟨made, fault⟩, hmade⟩ : ∃ made, store.makeDirectory root start before = made := ⟨_, rfl⟩
          have hkept := ih store
          rw [hmade] at hkept ⊢
          cases fault with
          | some fault => exact hkept
          | none =>
            dsimp only
            split
            · next hentered =>
              exact fun place item hitem => isKept_enterDirectory hentered _ _ (hkept _ _ hitem)
            · exact hkept
        · exact fun _ _ hitem => hitem

/-! ### Writing -/

/-- A file may be written where its path leads to one, or to nothing. -/
theorem follow_of_writable {path : String} (h : store.writable path = .ok place) :
    (∃ bytes, store.follow (origin path) (Path.names path) = .found place (.file bytes)) ∨
      store.follow (origin path) (Path.names path) = .free place := by
  unfold writable at h
  split at h
  · cases h
  · split at h
    · cases h
    · split at h
      · cases h
      · split at h
        · cases h
        · split at h
          · next hfollow =>
            obtain rfl := Except.ok.inj h
            exact Or.inl ⟨_, hfollow⟩
          · next hfollow =>
            obtain rfl := Except.ok.inj h
            exact Or.inr hfollow
          all_goals cases h

/-- Once it is opened, a file that may be written is there. -/
theorem item?_openFile_of_writable {path : String} (h : store.writable path = .ok place) :
    ∃ bytes, (store.openFile place).item? place = some (.file bytes) := by
  obtain ⟨bytes, hfound⟩ | hfree := follow_of_writable h
  · have hitem := item?_of_follow_found hfound
    exact ⟨bytes, by rw [openFile_eq_self hitem, hitem]⟩
  · exact ⟨[], item?_openFile_self (item?_of_follow_free hfree)⟩

/-- It has the last name of its path. -/
theorem getLast?_of_writable {path : String} (h : store.writable path = .ok place)
    (hlast : (Path.names path).getLast? = some name) (hdot : name ≠ ".") (hdots : name ≠ "..") :
    place.getLast? = some name := by
  obtain ⟨bytes, hfound⟩ | hfree := follow_of_writable h
  · exact getLast?_of_follow hlast hdot hdots (Or.inr ⟨_, hfound⟩)
  · exact getLast?_of_follow hlast hdot hdots (Or.inl hfree)

/-! ### Plain names -/

/-- Where a plain name leads from the working directory. -/
theorem follow_singleton (h : IsPlain name) : store.follow [] [name] =
    match store.item? [name] with
    | some item => .found [name] item
    | none => .free [name] := by
  have hdirectory : store.item? [] = some .directory := rfl
  unfold follow
  rw [hdirectory]
  dsimp only
  rw [if_neg h.ne_dot, if_neg h.ne_dots, if_neg (Nat.not_lt.mpr h.size_le), List.nil_append]
  cases hitem : store.item? [name] with
  | none => rfl
  | some item =>
    show follow store [name] [] = _
    rw [follow, hitem]

theorem size_le_maxPathLength (h : IsPlain name) : ¬maxPathLength < name.utf8ByteSize := by
  have hsize := h.size_le
  show ¬4095 < _
  have hmax : maxNameLength = 255 := rfl
  omega

/-- A plain name is resolved to its item. -/
theorem resolve_eq_found {item : Item} (h : IsPlain name) (hitem : store.item? [name] = some item) :
    store.resolve name = .found [name] item := by
  unfold resolve origin
  rw [h.isEmpty, h.contains_nul, h.endsInSlash, h.isAbsolute, h.names, if_neg]
  · show store.follow [] [name] = _
    rw [follow_singleton h, hitem]
  · simpa using size_le_maxPathLength h

/-- A file may be written under a plain name unless that of a directory. -/
theorem writable_eq (h : IsPlain name) : store.writable name =
    match store.item? [name] with
    | some .directory => .error (.refused .isADirectory name)
    | _ => .ok [name] := by
  unfold writable origin
  rw [h.contains_nul, h.isEmpty, h.endsInSlash, h.isAbsolute, h.names,
    if_neg Bool.false_ne_true, if_neg Bool.false_ne_true, if_neg (size_le_maxPathLength h),
    if_neg Bool.false_ne_true, if_neg Bool.false_ne_true, follow_singleton h]
  cases store.item? [name] with
  | none => rfl
  | some item => cases item <;> rfl

theorem writable_eq_ok (h : IsPlain name) (hitem : store.item? [name] ≠ some .directory) :
    store.writable name = .ok [name] := by
  rw [writable_eq h]
  split
  · exact absurd ‹_› hitem
  · rfl

end Store

end AreaAtlas.Files
