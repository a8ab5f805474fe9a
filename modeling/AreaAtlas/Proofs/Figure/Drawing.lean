import AreaAtlas.Figure.Drawing
import AreaAtlas.Keyed
import AreaAtlas.Proofs.Reading
import Mathlib.Data.List.Nodup

/-!
# Which graphs can be drawn

A list whose keys are distinct is kept as it is: no entry takes the place of another, and each is found
under its key.

Drawing looks up the ends of the connections that it shows.  If all ends are keys of vertices, nothing is
looked up in vain, whatever is asked to be shown.
-/

namespace AreaAtlas.Keyed

/-! ## Entries with distinct keys -/

variable {α : Type}

theorem insert_of_notMem {entries : Keyed α} {key : String} {value : α} (h : key ∉ keys entries) :
    insert entries key value = entries ++ [(key, value)] := by
  induction entries with
  | nil => rfl
  | cons entry rest ih =>
    have hne : ¬entry.1 = key := fun he => h (he ▸ List.mem_cons_self)
    rw [insert, if_neg hne, ih fun hm => h (List.mem_cons_of_mem _ hm), List.cons_append]

theorem foldl_insert_of_nodup {done entries : List (String × α)}
    (h : ((done ++ entries).map (·.1)).Nodup) :
    entries.foldl (fun done entry => insert done entry.1 entry.2) done = done ++ entries := by
  induction entries generalizing done with
  | nil => exact (List.append_nil done).symm
  | cons entry rest ih =>
    have hnew : entry.1 ∉ keys done := by
      rw [List.map_append, List.map_cons] at h
      exact fun hm => (List.nodup_append.mp h).2.2 _ hm _ List.mem_cons_self rfl
    rw [List.append_cons] at h
    rw [List.foldl_cons, insert_of_notMem hnew, ih h, ← List.append_cons]

/-- Entries with distinct keys are kept, in their order. -/
theorem ofList_of_nodup {entries : List (String × α)} (h : (entries.map (·.1)).Nodup) :
    ofList entries = entries :=
  foldl_insert_of_nodup h

/-- Something is found under every key. -/
theorem exists_get?_of_mem_keys {entries : Keyed α} {key : String} (h : key ∈ keys entries) :
    ∃ value, get? entries key = some value := by
  induction entries with
  | nil => cases h
  | cons entry rest ih =>
    rw [get?_cons]
    split
    · exact ⟨_, rfl⟩
    · next hne =>
      rcases List.mem_cons.mp h with rfl | h
      · exact absurd rfl hne
      · exact ih h

/-- What is found under a key stands there. -/
theorem mem_of_get?_eq_some {entries : Keyed α} {key : String} {value : α}
    (h : get? entries key = some value) : (key, value) ∈ entries := by
  obtain ⟨entry, hfind, rfl⟩ := Option.map_eq_some_iff.mp h
  have hkey := List.find?_some hfind
  rw [← beq_iff_eq.mp hkey]
  exact List.mem_of_find?_eq_some hfind

end AreaAtlas.Keyed

namespace AreaAtlas

/-! ## Drawing -/

/-- Every connection of a graph begins and ends at keys of its vertices. -/
def Graph.EndsAtKeys (g : Graph) : Prop :=
  ∀ c ∈ g.connections, c.start ∈ g.vertices.keys ∧ c.finish ∈ g.vertices.keys

namespace Figure

variable {g : Graph}

theorem exists_locate_eq_ok {key : String} (h : key ∈ g.vertices.keys) :
    ∃ position, locate g key = .ok position := by
  obtain ⟨v, hv⟩ := Keyed.exists_get?_of_mem_keys h
  refine ⟨v.position, ?_⟩
  unfold locate Graph.vertex?
  rw [hv]

theorem exists_segment_eq_ok {c : Connection} (hstart : c.start ∈ g.vertices.keys)
    (hfinish : c.finish ∈ g.vertices.keys) : ∃ ends, segment g c = .ok ends := by
  obtain ⟨start, hs⟩ := exists_locate_eq_ok hstart
  obtain ⟨finish, hf⟩ := exists_locate_eq_ok hfinish
  refine ⟨(start, finish), ?_⟩
  unfold segment
  rw [hs, hf]
  rfl

theorem exists_lineTraces_eq_ok (h : g.EndsAtKeys) (style : LineStyle) (p : Connection → Bool) :
    ∃ traces, lineTraces g style (g.connections.filter p) = .ok traces := by
  obtain ⟨segments, hsegments⟩ : ∃ segments,
      (g.connections.filter p).mapM (segment g) = .ok segments := by
    refine Except.exists_mapM_eq_ok ?_
    intro c hc
    obtain ⟨hstart, hfinish⟩ := h c (List.mem_filter.mp hc).1
    exact exists_segment_eq_ok hstart hfinish
  unfold lineTraces
  split
  · exact ⟨[], rfl⟩
  · rw [hsegments]
    exact ⟨_, rfl⟩

theorem exists_connectionTraces_eq_ok (h : g.EndsAtKeys) (options : Options) :
    ∃ traces, connectionTraces g options = .ok traces := by
  obtain ⟨twoWay, htwo⟩ := exists_lineTraces_eq_ok h twoWayStyle isTwoWay
  obtain ⟨oneWay, hone⟩ := exists_lineTraces_eq_ok h oneWayStyle isOneWay
  obtain ⟨leaves, hleaves⟩ := exists_lineTraces_eq_ok h leafLineStyle isLeafConnection
  unfold connectionTraces
  rw [htwo, hone, hleaves]
  cases options.showConnections with
  | false => exact ⟨[], rfl⟩
  | true =>
    cases options.showLeaves with
    | false => exact ⟨twoWay ++ oneWay, rfl⟩
    | true => exact ⟨twoWay ++ oneWay ++ leaves, rfl⟩

/-- A graph whose connections end at its vertices can be drawn in every way. -/
theorem exists_draw_eq_ok (h : g.EndsAtKeys) (options : Options) :
    ∃ figure, draw g options = .ok figure := by
  obtain ⟨traces, htraces⟩ := exists_connectionTraces_eq_ok h options
  unfold draw
  rw [htraces]
  exact ⟨_, rfl⟩

end Figure

end AreaAtlas
