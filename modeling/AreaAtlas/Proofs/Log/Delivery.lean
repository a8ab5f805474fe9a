import AreaAtlas.Log.Logging
import AreaAtlas.Proofs.Log.Tree

/-!
# Delivery once logging is set up

Once logging is set up, the handlers that take a record are found from the names of loggers alone: those of
the program and of the root, `deliver_eq`.  Whether a logger passes on a record is settled when it is first
asked.  What is settled stays right as loggers are added, `IsSetUp.meet` and `IsSetUp.settle`, if no two
dots in a row follow the name of one of the loggers that setting up is about; behind two dots, a logger that
is added later may come to hold back what is settled to be passed on.
-/

namespace AreaAtlas.Log

/-- No two dots in a row follow the name of one of the loggers that setting up is about. -/
def IsRegular (logger : String) : Prop :=
  ∀ outer ∈ package :: noisy, ¬IsDoubled outer logger

instance (logger : String) : Decidable (IsRegular logger) :=
  inferInstanceAs (Decidable (∀ _ ∈ _, _))

/-- The least level of the records that a logger passes on once logging is set up. -/
def leastLevel (logger : String) : Level :=
  if ∃ outer ∈ noisy, IsBelow outer logger then warning else debug

/-- It is right that records of a level are passed on by a logger, or are not. -/
structure IsRight (logger : String) (level : Level) (passed : Bool) : Prop where
  of_warning_le : warning ≤ level → passed = true
  debug_le : passed = true → debug ≤ level
  iff_of_isRegular : IsRegular logger → (passed = true ↔ leastLevel logger ≤ level)

theorem isRoot_eq_false_of_mem {outer : String} (h : outer ∈ package :: noisy) : isRoot outer = false := by
  revert h outer
  decide

namespace Logging

variable {s : Logging} {logger : String} {level : Level}

/-- Logging is set up, but for the handlers. -/
structure IsSetUp (s : Logging) : Prop where
  rootLevel : s.rootLevel = debug
  heldBack : s.heldBack = true
  mem_loggers : ∀ outer ∈ package :: noisy, outer ∈ s.loggers
  isRight : ∀ entry ∈ s.settled, IsRight entry.1.1 entry.1.2 entry.2

theorem isWithin_iff (h : s.IsSetUp) {outer : String} (houter : outer ∈ package :: noisy)
    (hregular : ¬IsDoubled outer logger) : s.isWithin outer logger = true ↔ IsBelow outer logger := by
  unfold isWithin
  rw [List.contains_iff_mem]
  exact mem_lineage_iff (h.mem_loggers outer houter) (isRoot_eq_false_of_mem houter) hregular

theorem isBelow_of_isWithin {outer : String} (h : s.isWithin outer logger = true) :
    IsBelow outer logger :=
  isBelow_of_mem_lineage (List.contains_iff_mem.mp h)

/-! ## Passing on -/

theorem effectiveLevel_eq_or (h : s.IsSetUp) (logger : String) :
    s.effectiveLevel logger = debug ∨ s.effectiveLevel logger = warning := by
  unfold effectiveLevel
  split
  · exact Or.inr rfl
  · exact Or.inl h.rootLevel

theorem effectiveLevel_eq (h : s.IsSetUp) (hregular : IsRegular logger) :
    s.effectiveLevel logger = leastLevel logger := by
  have hwithin : (s.heldBack && noisy.any (s.isWithin · logger)) = true ↔
      ∃ outer ∈ noisy, IsBelow outer logger := by
    rw [h.heldBack, Bool.true_and, List.any_eq_true]
    refine exists_congr fun outer => and_congr_right fun houter => ?_
    have hmem : outer ∈ package :: noisy := List.mem_cons_of_mem _ houter
    exact isWithin_iff h hmem (hregular outer hmem)
  unfold effectiveLevel leastLevel
  rw [h.rootLevel]
  exact if_congr hwithin rfl rfl

/-- **It is right what a logger passes on**, settled or not. -/
theorem IsSetUp.isRight_passesOn (h : s.IsSetUp) (logger : String) (level : Level) :
    IsRight logger level (s.passesOn logger level) := by
  unfold passesOn
  cases hlookup : s.settled.lookup (logger, level) with
  | some passed =>
    obtain ⟨before, behind, hsettled, -⟩ := List.lookup_eq_some_iff.mp hlookup
    exact h.isRight ((logger, level), passed) (by rw [hsettled]; simp)
  | none =>
    have hlevel := effectiveLevel_eq_or h logger
    have horder : debug ≤ warning := by decide
    constructor
    · intro hwarning
      apply decide_eq_true
      rcases hlevel with hlevel | hlevel
      · rw [hlevel]
        exact Int.le_trans horder hwarning
      · rwa [hlevel]
    · intro hpassed
      have hpassed : s.effectiveLevel logger ≤ level := of_decide_eq_true hpassed
      rcases hlevel with hlevel | hlevel
      · rwa [hlevel] at hpassed
      · rw [hlevel] at hpassed
        exact Int.le_trans horder hpassed
    · intro hregular
      show decide (s.effectiveLevel logger ≤ level) = true ↔ _
      rw [decide_eq_true_iff, effectiveLevel_eq h hregular]

/-- What is settled is what was right before. -/
theorem passesOn_settle (s : Logging) (logger : String) (level : Level) :
    (s.settle logger level).passesOn logger level = s.passesOn logger level := by
  unfold settle
  split
  · rfl
  · show (List.lookup (logger, level) (((logger, level), s.passesOn logger level) :: s.settled)).getD _ = _
    rw [List.lookup_cons_self, Option.getD_some]

/-! ## What stays -/

/-- Taking a name among the loggers changes nothing else. -/
theorem exists_meet_eq (s : Logging) (logger : String) : ∃ loggers, s.meet logger = { s with loggers } := by
  unfold Logging.meet
  split
  · exact ⟨s.loggers, rfl⟩
  · exact ⟨_, rfl⟩

theorem exists_settle_eq (s : Logging) (logger : String) (level : Level) :
    ∃ settled, s.settle logger level = { s with settled } := by
  unfold Logging.settle
  split
  · exact ⟨s.settled, rfl⟩
  · exact ⟨_, rfl⟩

theorem IsSetUp.meet (h : s.IsSetUp) (logger : String) : (s.meet logger).IsSetUp := by
  unfold Logging.meet
  split
  · exact h
  · exact ⟨h.rootLevel, h.heldBack, fun outer houter => List.mem_cons_of_mem _ (h.mem_loggers outer houter),
      h.isRight⟩

theorem IsSetUp.settle (h : s.IsSetUp) (logger : String) (level : Level) :
    (s.settle logger level).IsSetUp := by
  unfold Logging.settle
  split
  · exact h
  · exact ⟨h.rootLevel, h.heldBack, h.mem_loggers,
      List.forall_mem_cons.mpr ⟨h.isRight_passesOn logger level, h.isRight⟩⟩

/-- A new console handler changes nothing but the console. -/
theorem IsSetUp.attachConsole (h : s.IsSetUp) (level : Level) (session : Nat) :
    (s.attachConsole level session).IsSetUp :=
  ⟨rfl, h.heldBack, h.mem_loggers, List.forall_mem_nil _⟩

theorem mem_loggers_meet (s : Logging) {name : String} (hname : isRoot name = false) :
    name ∈ (s.meet name).loggers := by
  unfold Logging.meet
  split
  · next h =>
    rw [hname, Bool.false_or] at h
    exact List.contains_iff_mem.mp h
  · exact List.mem_cons_self

theorem subset_loggers_meet (s : Logging) (name : String) : s.loggers ⊆ (s.meet name).loggers := by
  unfold Logging.meet
  split
  · exact List.Subset.refl _
  · exact List.subset_cons_self _ _

/-- After any names are taken among the loggers, they are there with the others. -/
theorem foldl_meet (names : List String) (s : Logging) (hnames : ∀ name ∈ names, isRoot name = false) :
    ∃ loggers, names.foldl Logging.meet s = { s with loggers } ∧ s.loggers ⊆ loggers ∧ names ⊆ loggers := by
  induction names generalizing s with
  | nil => exact ⟨s.loggers, rfl, List.Subset.refl _, List.nil_subset _⟩
  | cons name rest ih =>
    obtain ⟨hname, hrest⟩ := List.forall_mem_cons.mp hnames
    obtain ⟨loggers, heq, hsub, hmem⟩ := ih (s.meet name) hrest
    refine ⟨loggers, ?_, List.Subset.trans (subset_loggers_meet s name) hsub, ?_⟩
    · obtain ⟨met, hmet⟩ := exists_meet_eq s name
      rw [List.foldl_cons, heq, hmet]
    · exact List.cons_subset.mpr ⟨hsub (mem_loggers_meet s hname), hmem⟩

/-- What a new file handler comes with. -/
theorem exists_attachFile_eq (s : Logging) (log : File) (level : Level) :
    ∃ loggers, s.attachFile log level =
      { s with loggers, packageHandlers := [.file log level], heldBack := true, settled := [] } ∧
        package :: noisy ⊆ loggers := by
  obtain ⟨loggers, heq, -, hmem⟩ := foldl_meet (package :: noisy)
    { s with packageHandlers := [.file log level], heldBack := true, settled := [] }
    fun _ h => isRoot_eq_false_of_mem h
  exact ⟨loggers, heq, hmem⟩

/-- **With the file handler logging is set up.** -/
theorem attachFile_eq {s : Logging} (hlevel : s.rootLevel = debug) (log : File) (level : Level) :
    (s.attachFile log level).IsSetUp ∧ (s.attachFile log level).rootHandlers = s.rootHandlers ∧
      (s.attachFile log level).packageHandlers = [.file log level] := by
  obtain ⟨loggers, heq, hmem⟩ := exists_attachFile_eq s log level
  rw [heq]
  exact ⟨⟨hlevel, rfl, fun outer houter => hmem houter, List.forall_mem_nil _⟩, rfl, rfl⟩

/-! ## Handlers -/

/-- **The handlers that take a record**: those of the program, if the logger is within it, and those of the
root, from their levels on. -/
theorem deliver_eq {log : File} {consoleLevel fileLevel : Level} {session : Nat}
    (hroot : s.rootHandlers = [.console consoleLevel session])
    (hpackage : s.packageHandlers = [.file log fileLevel]) (r : Record) :
    s.deliver r = if s.passesOn r.logger r.level then
      (if s.isWithin package r.logger ∧ fileLevel ≤ r.level then [.file log fileLevel] else []) ++
        (if consoleLevel ≤ r.level then [.console consoleLevel session] else [])
      else [] := by
  have hhandlers : s.handlersOf r.logger = (if s.isWithin package r.logger then
      [.file log fileLevel] else []) ++ [.console consoleLevel session] := by
    unfold handlersOf
    rw [hroot, hpackage]
    split
    · next h => simp at h
    · rfl
  have htakes : ∀ handler : Handler, [handler].filter (·.level ≤ r.level)
      = if handler.level ≤ r.level then [handler] else [] := by
    intro handler
    rw [List.filter_cons]
    simp only [List.filter_nil, decide_eq_true_eq]
  have hfile : (if s.isWithin package r.logger then [.file log fileLevel] else []).filter
      (fun handler : Handler => handler.level ≤ r.level)
      = if s.isWithin package r.logger ∧ fileLevel ≤ r.level then [.file log fileLevel] else [] := by
    rw [ite_and]
    split
    · exact htakes _
    · rfl
  unfold deliver
  rw [hhandlers, List.filter_append, hfile, htakes]
  rfl

end Logging

end AreaAtlas.Log
