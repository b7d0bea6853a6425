import Crosstab.Proofs.Pivot.Opening
import Crosstab.Proofs.Session.Consistency

/-!
# Opening and closing are local

An edit of the open nodes leaves every other node below the root as it was. The root is another
matter. It counts as open on its own account only until it is closed; after that it is open as long
as it is hidden or something below it is open. So the last node that is closed below a closed root
closes the root too, although it lies above.
-/

namespace Crosstab

namespace Session

variable {s : Session} {p q : List PathKey}

theorem isOpen_below (nonempty : q ≠ []) : s.isOpen q = s.openPaths.isOpen q := if_neg nonempty

theorem isOpen_root_iff :
    s.isOpen [] = true ↔
      s.rootOpen = true ∨ s.spec.showRoot = false ∨ ∃ q, s.openPaths.isOpen q = true := by
  have some : s.openPaths.isEmpty = false ↔ ∃ q, s.openPaths.isOpen q = true := by
    rw [← Bool.not_eq_true, OpenPaths.isEmpty_iff]
    simp
  rw [isOpen, if_pos rfl, ← some]
  simp only [Bool.or_eq_true, Bool.not_eq_true', or_assoc]
  exact or_congr_right or_comm

/-! ## Opening -/

/-- What is open after a node is opened, the root included. -/
theorem isOpen_openPath :
    (s.openPath p).isOpen q = true ↔ q <+: p ∨ s.isOpen q = true := by
  by_cases root : q = []
  · subst root
    simp only [List.nil_prefix, true_or, iff_true]
    rw [isOpen_root_iff]
    by_cases same : p = []
    · left
      simp [openPath, same]
    · right
      right
      exact ⟨p, OpenPaths.isOpen_openPath.2 (.inl ⟨same, List.prefix_rfl⟩)⟩
  · rw [isOpen_below root, isOpen_below root]
    exact OpenPaths.isOpen_openPath.trans (by simp [root])

/-! ## Closing -/

/-- What is open below the root after a node is closed. -/
theorem isOpen_closePath (nonempty : p ≠ []) (below : q ≠ []) :
    (s.closePath p).isOpen q = true ↔ s.isOpen q = true ∧ ¬ p <+: q := by
  rw [isOpen_below below, isOpen_below below]
  exact OpenPaths.isOpen_closePath nonempty

/-- When the root is still open after a node is closed. -/
theorem isOpen_root_closePath (nonempty : p ≠ []) :
    (s.closePath p).isOpen [] = true ↔
      s.rootOpen = true ∨ s.spec.showRoot = false ∨
        ∃ q, s.openPaths.isOpen q = true ∧ ¬ p <+: q := by
  have flag : (s.closePath p).rootOpen = s.rootOpen := by simp [closePath, nonempty]
  have layout : (s.closePath p).spec = s.spec := rfl
  have paths : (s.closePath p).openPaths = s.openPaths.closePath p := rfl
  rw [isOpen_root_iff, flag, layout, paths]
  simp only [OpenPaths.isOpen_closePath nonempty]

/-- The root closes along with a node below it only when nothing but that node keeps it open. -/
theorem isOpen_root_closePath_eq_iff (nonempty : p ≠ []) :
    (s.closePath p).isOpen [] = s.isOpen [] ↔
      ¬ (s.rootOpen = false ∧ s.spec.showRoot = true ∧ s.isOpen p = true ∧
        ∀ q, q ≠ [] → s.isOpen q = true → p <+: q) := by
  rw [Bool.eq_iff_iff, isOpen_root_closePath nonempty, isOpen_root_iff, isOpen_below nonempty]
  constructor
  · rintro same ⟨closed, visible, isOpen, all⟩
    rw [closed, visible] at same
    simp only [Bool.false_eq_true, false_or, Bool.true_eq_false] at same
    obtain ⟨q, other, apart⟩ := same.2 ⟨p, isOpen⟩
    have below := (OpenPaths.isOpen_eq_true_iff.1 other).1
    exact apart (all q below ((isOpen_below below).trans other))
  · intro kept
    refine or_congr_right' fun closed => or_congr_right' fun visible => ?_
    constructor
    · rintro ⟨q, other, -⟩
      exact ⟨q, other⟩
    · rintro ⟨q, other⟩
      by_contra none
      simp only [not_exists, not_and, not_not] at none
      refine kept ⟨by simpa using closed, by simpa using visible, ?_, fun r below opened => ?_⟩
      · exact OpenPaths.isOpen_of_prefix other nonempty (none q other)
      · exact none r ((isOpen_below below).symm.trans opened)

/-! ## Runs -/

/-- The event may open or close the node at a path. -/
def Event.Touches : Event → List PathKey → Prop
  | .openPath p, q => q <+: p
  | .closePath p, q => p <+: q
  | .togglePath p, q => q <+: p ∨ p <+: q
  | .setOpenPaths _, _ => True
  | .setPivots _, _ => True
  | .setSortKey _, _ => False
  | .setShowRoot _, _ => False
  | .refresh _, _ => False

theorem isOpen_openPath_of_not (apart : ¬ q <+: p) : (s.openPath p).isOpen q = s.isOpen q := by
  rw [Bool.eq_iff_iff, isOpen_openPath]
  simp [apart]

theorem isOpen_closePath_of_not (below : q ≠ []) (apart : ¬ p <+: q) :
    (s.closePath p).isOpen q = s.isOpen q := by
  have nonempty : p ≠ [] := by
    rintro rfl
    exact apart List.nil_prefix
  rw [Bool.eq_iff_iff, isOpen_closePath nonempty below]
  simp [apart]

theorem openPaths_prepare : s.prepare.2.openPaths = s.openPaths := by
  unfold prepare
  split <;> rfl

theorem openPaths_refresh (answer : Query → Except Error Table) (log : List Exchange) :
    ((Event.refresh answer).run s log).1.openPaths = s.openPaths := by
  rw [← openPaths_prepare (s := s)]
  cases prepared : s.prepare with
  | mk result next =>
    cases result with
    | error e => rw [run_refresh_of_error prepared]
    | ok query =>
      rw [run_refresh_of_query prepared]
      cases answer query <;> rfl

/-- An event leaves the nodes below the root that it does not touch. -/
theorem isOpen_run {event : Event} (log : List Exchange) (below : q ≠ [])
    (apart : ¬ event.Touches q) : (event.run s log).1.isOpen q = s.isOpen q := by
  cases event with
  | openPath p => exact isOpen_openPath_of_not apart
  | closePath p => exact isOpen_closePath_of_not below apart
  | togglePath p =>
    obtain ⟨above, under⟩ := not_or.1 apart
    rw [Event.run, togglePath]
    split
    · exact isOpen_closePath_of_not below under
    · exact isOpen_openPath_of_not above
  | setOpenPaths openPaths => exact absurd trivial apart
  | setPivots columns => exact absurd trivial apart
  | setSortKey keys => rw [isOpen_below below, isOpen_below below]; rfl
  | setShowRoot shown => rw [isOpen_below below, isOpen_below below]; rfl
  | refresh answer => rw [isOpen_below below, isOpen_below below, openPaths_refresh]

/-- Any number of events leaves the nodes below the root that none of them touches. -/
theorem isOpen_runs (events : List Event) (log : List Exchange) (below : q ≠ [])
    (apart : ∀ event ∈ events, ¬ event.Touches q) :
    (s.runs log events).1.isOpen q = s.isOpen q := by
  induction events generalizing s log with
  | nil => rfl
  | cons event events ih =>
    obtain ⟨first, rest⟩ := List.forall_mem_cons.1 apart
    exact (ih _ rest).trans (isOpen_run log below first)

/-! ## One edit -/

/-- Closing a node below the root closes it and everything below it, and leaves every other node
below the root as it was. It leaves the root as it was too, unless the root is shown, was closed and
not opened since, and everything that is open is that node and nodes below it; then the root closes.
Opening a node opens it and everything above it, the root included, and leaves the rest as it was.
Nodes are named by the keys of texts or of values. -/
theorem openPath_closePath_local (s : Session) {p : List PathKey} (nonempty : p ≠ []) :
    (∀ q, p <+: q → (s.closePath p).isOpen q = false) ∧
    (∀ q, q ≠ [] → ¬ p <+: q → (s.closePath p).isOpen q = s.isOpen q) ∧
    ((s.closePath p).isOpen [] = s.isOpen [] ↔
      ¬ (s.rootOpen = false ∧ s.spec.showRoot = true ∧ s.isOpen p = true ∧
        ∀ q, q ≠ [] → s.isOpen q = true → p <+: q)) ∧
    (∀ q, q <+: p → (s.openPath p).isOpen q = true) ∧
    ∀ q, ¬ q <+: p → (s.openPath p).isOpen q = s.isOpen q := by
  refine ⟨fun q under => ?_, fun q => isOpen_closePath_of_not, isOpen_root_closePath_eq_iff nonempty,
    fun q above => isOpen_openPath.2 (.inl above), fun q => isOpen_openPath_of_not⟩
  have below : q ≠ [] := by
    rintro rfl
    exact nonempty (List.prefix_nil.1 under)
  rw [← Bool.not_eq_true, isOpen_closePath nonempty below]
  exact fun still => still.2 under

/-- The root is closed, two regions and a product in one of them are opened, and the other region
is closed. -/
def regionEvents : List Event :=
  [.closePath [], .openPath (textPath ["north"]), .openPath (valuePath [.null, .int 7]),
    .closePath (textPath ["north"])]

theorem openPath_closePath_local_productSales : ∃ s log,
    Reached PivotTree.productSales PivotTree.byRegion s log ∧ s.rootOpen = false ∧
      (s.closePath [none, some "7"]).isOpen [none, some "7", some "x"] = false ∧
      (s.closePath [none, some "7"]).isOpen [none] = true ∧
      (s.closePath [none, some "7"]).isOpen [] = true ∧
      (s.openPath (textPath ["south", "8"])).isOpen (textPath ["south"]) = true ∧
      (s.openPath (textPath ["south", "8"])).isOpen [none, some "7"] = true := by
  obtain ⟨first, started⟩ : ∃ s, start PivotTree.productSales PivotTree.byRegion = .ok s := ⟨_, rfl⟩
  have shown : (start PivotTree.productSales PivotTree.byRegion).toOption.map (fun s =>
      let now := (s.runs [] regionEvents).1
      (now.rootOpen, now.isOpen [], now.isOpen [none], now.isOpen [none, some "7"])) =
        some (false, true, true, true) := by
    decide +kernel
  rw [started] at shown
  simp only [Except.toOption, Option.map_some, Option.some.injEq, Prod.mk.injEq] at shown
  obtain ⟨closed, root, region, product⟩ := shown
  have reached := (Reached.start started).runs regionEvents
  obtain ⟨gone, kept, rootKept, -, -⟩ :=
    openPath_closePath_local (first.runs [] regionEvents).1 (List.cons_ne_nil none [some "7"])
  obtain ⟨-, -, -, above, beside⟩ :=
    openPath_closePath_local (first.runs [] regionEvents).1 (p := textPath ["south", "8"])
      (by decide)
  refine ⟨_, _, reached, closed, gone _ (by decide), ?_, ?_, above _ (by decide), ?_⟩
  · exact (kept [none] (by decide) (by decide)).trans region
  · refine (rootKept.2 fun lone => ?_).trans root
    exact absurd (lone.2.2.2 [none] (by decide) region) (by decide)
  · exact (beside [none, some "7"] (by decide)).trans product

/-- The root was closed; a node below it is opened and closed again. -/
theorem closePath_not_local : ¬ ∀ base spec s log, Reached base spec s log →
    ∀ p, p ≠ [] → ∀ q, ¬ p <+: q → (s.closePath p).isOpen q = s.isOpen q := by
  intro claimed
  obtain ⟨first, started⟩ : ∃ s, start PivotTree.productSales PivotTree.byRegion = .ok s := ⟨_, rfl⟩
  have reached := (Reached.start started).runs [.closePath [], .openPath (textPath ["north"])]
  have same := claimed _ _ _ _ reached (textPath ["north"]) (by decide) [] (by decide)
  have differs : (start PivotTree.productSales PivotTree.byRegion).toOption.map (fun s =>
      let now := (s.runs [] [.closePath [], .openPath (textPath ["north"])]).1
      ((now.closePath (textPath ["north"])).isOpen [], now.isOpen [])) = some (false, true) := by
    decide +kernel
  rw [started] at differs
  obtain ⟨closed, opened⟩ := Prod.mk.inj (Option.some.inj differs)
  rw [closed, opened] at same
  cases same

end Session

end Crosstab
