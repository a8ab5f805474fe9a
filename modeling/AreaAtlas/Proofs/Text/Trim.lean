import AreaAtlas.Proofs.Text.Run

/-!
# White space at the ends

What is left of a text without the white space at its back is a part of its front, and it does not end in
white space.  So taking the white space off both ends a second time changes nothing.
-/

namespace AreaAtlas

section TrimEnd

variable {text front behind : List Char} {c : Char}

theorem trimEnd_isPrefix (text : List Char) : trimEnd text <+: text := by
  have h := List.reverse_prefix.mpr (List.dropWhile_suffix (l := text.reverse) isBlank)
  rwa [List.reverse_reverse] at h

theorem trimEnd_getLast? (h : c ∈ (trimEnd text).getLast?) : isBlank c = false := by
  unfold trimEnd at h
  rw [List.getLast?_reverse] at h
  exact stopsAt_dropWhile c h

theorem trimEnd_append_blank (h : isBlank c = true) : trimEnd (text ++ [c]) = trimEnd text := by
  unfold trimEnd
  rw [List.reverse_append, List.reverse_singleton, List.singleton_append, List.dropWhile_cons_of_pos h]

theorem trimEnd_append (hlast : ∀ c ∈ front.getLast?, isBlank c = false) :
    trimEnd (front ++ behind) = front ++ trimEnd behind := by
  have hstops : StopsAt isBlank front.reverse := by
    intro c hc
    rw [List.head?_reverse] at hc
    exact hlast c hc
  unfold trimEnd
  rw [List.reverse_append, List.dropWhile_append]
  split
  · next hempty =>
    rw [dropWhile_of_stopsAt hstops, List.isEmpty_iff.mp hempty, List.reverse_reverse]
    exact (List.append_nil front).symm
  · rw [List.reverse_append, List.reverse_reverse]

/-- If something is left at the back, all that is in front of it is left. -/
theorem trimEnd_append_of_ne_nil (h : trimEnd behind ≠ []) :
    trimEnd (front ++ behind) = front ++ trimEnd behind := by
  have hne : ¬(behind.reverse.dropWhile isBlank).isEmpty = true := by
    intro hempty
    apply h
    unfold trimEnd
    rw [List.isEmpty_iff.mp hempty]
    rfl
  unfold trimEnd
  rw [List.reverse_append, List.dropWhile_append, if_neg hne, List.reverse_append, List.reverse_reverse]

theorem trimEnd_eq_self (hlast : ∀ c ∈ text.getLast?, isBlank c = false) : trimEnd text = text := by
  have h : trimEnd (text ++ []) = text ++ [] := trimEnd_append hlast
  rwa [List.append_nil] at h

/-- Nothing is left exactly if all of it is white space. -/
theorem trimEnd_eq_nil_iff : trimEnd text = [] ↔ ∀ c ∈ text, isBlank c = true := by
  unfold trimEnd
  rw [List.reverse_eq_nil_iff, List.dropWhile_eq_nil_iff]
  simp only [List.mem_reverse]

end TrimEnd

section Trim

variable {text : List Char}

theorem trimStart_eq_nil_iff : trimStart text = [] ↔ ∀ c ∈ text, isBlank c = true :=
  List.dropWhile_eq_nil_iff

/-- A text that neither begins nor ends in white space stays as it is. -/
theorem trim_eq_self (hfirst : StopsAt isBlank text) (hlast : ∀ c ∈ text.getLast?, isBlank c = false) :
    trim text = text := by
  unfold trim
  rw [trimStart_of_stopsAt hfirst, trimEnd_eq_self hlast]

theorem stopsAt_trim : StopsAt isBlank (trim text) := by
  obtain ⟨behind, h⟩ := trimEnd_isPrefix (trimStart text)
  have hstart : StopsAt isBlank (trimStart text) := stopsAt_dropWhile
  intro c hc
  apply hstart
  have hc : (trimEnd (trimStart text)).head? = some c := hc
  rw [← h, List.head?_append, hc]
  rfl

theorem trim_trim (text : List Char) : trim (trim text) = trim text :=
  trim_eq_self stopsAt_trim fun _ hc => trimEnd_getLast? hc

/-- Nothing is left of a text of white space only. -/
theorem trim_eq_nil_iff : trim text = [] ↔ ∀ c ∈ text, isBlank c = true := by
  constructor
  · intro h
    refine trimStart_eq_nil_iff.mp ?_
    by_contra hne
    -- the first character that is left in front is no white space, so it is left at the back too
    obtain ⟨c, rest, hc⟩ := List.exists_cons_of_ne_nil hne
    have hstart : StopsAt isBlank (trimStart text) := stopsAt_dropWhile
    rw [hc, stopsAt_cons_iff] at hstart
    have hlast : ∀ d ∈ [c].getLast?, isBlank d = false := by
      intro d hd
      rwa [← Option.some.inj hd]
    have hfront : trimEnd ([c] ++ rest) = [c] ++ trimEnd rest := trimEnd_append hlast
    unfold trim at h
    rw [hc] at h
    have h : trimEnd ([c] ++ rest) = [] := h
    rw [hfront] at h
    cases h
  · intro h
    unfold trim
    rw [trimStart_eq_nil_iff.mpr h]
    rfl

end Trim

end AreaAtlas
