import CloudGateway.AdvisoryGuard

/-!
# Holds

An advisory id is ignored on every package, so the holds of an id should cover each package of
their crate: it is at a version held under the id, or in a range that is fixed for the id
(`Covered`).  The guard pools the versions and the ranges of all ids of a crate.  When it
passes, each package is covered for some id of its crate, and for all of them if and only if
the ids of a crate cover the same packages (`covered_iff`).
-/

namespace CloudGateway

namespace AdvisoryGuard

/-- The packages of `Cargo.lock`. -/
def Root.packages (root : Root) : List Package :=
  (root.lock.bind LockFile.package).getD []

/-- The holds. -/
def Root.holdList (root : Root) : List Hold := (root.holds.bind HoldsFile.hold).getD []

/-- The holds of the id cover the package. -/
def Covered (py : Python) (holds : List Hold) (id : String) (p : Package) : Prop :=
  (∃ h ∈ holds, h.id = id ∧ h.crate = p.name ∧ h.version = p.version) ∨
    ∃ h ∈ holds, h.id = id ∧ ∃ r ∈ h.fixed, inRange py p.version r = some true

/-- The ids that are held on one crate cover the same packages of it. -/
def Agree (py : Python) (holds : List Hold) (packages : List Package) : Prop :=
  ∀ h ∈ holds, ∀ h' ∈ holds, h.crate = h'.crate → ∀ p ∈ packages, p.name = h.crate →
    Covered py holds h'.id p → Covered py holds h.id p

variable {py : Python}

/-- A package without an error is covered for some id of its crate. -/
theorem covered_of_checkPackage {holds : List Hold} {crate : String} {p : Package}
    (hname : p.name = crate) (h : checkPackage py holds crate p = some []) :
    ∃ h ∈ holds, h.crate = crate ∧ Covered py holds h.id p := by
  rw [checkPackage] at h
  by_cases hheld : (crate, p.version) ∈ holds.map fun h ↦ (h.crate, h.version)
  · obtain ⟨h, hh, heq⟩ := List.mem_map.mp hheld
    obtain ⟨hcrate, hversion⟩ := Prod.mk.inj heq
    exact ⟨h, hh, hcrate, Or.inl ⟨h, hh, rfl, hcrate.trans hname.symm, hversion⟩⟩
  · rw [if_neg (by simp only [hname, ne_eq, not_true, false_or]; exact hheld)] at h
    obtain ⟨fixed, hfixed, h⟩ := Option.bind_eq_some_iff.mp h
    cases fixed with
    | false => cases Option.some.inj h
    | true =>
        obtain ⟨r, hr, hin⟩ := Python.exists_of_anyM hfixed
        obtain ⟨h, hh, hr⟩ := List.mem_flatMap.mp ((py.mem_iterate _ _).mp hr)
        obtain ⟨hh, hcrate⟩ := List.mem_filter.mp hh
        exact ⟨h, hh, of_decide_eq_true hcrate, Or.inr ⟨h, hh, rfl, r, hr, hin⟩⟩

/-- When the guard passes, it has found no error in any package of a held crate. -/
theorem checkPackage_of_check {root : Root} {today : Python.Date} {lines : List String}
    (h : check py root today = some (0, lines)) :
    ∀ h ∈ root.holdList, ∀ p ∈ root.packages,
      checkPackage py root.holdList h.crate p = some [] := by
  rw [check] at h
  cases hlock : root.lock with
  | none => simp [hlock] at h
  | some lock =>
  cases hpackages : lock.package.getD [] with
  | nil => simp [hlock, hpackages] at h
  | cons p ps =>
  cases hfile : root.holds with
  | none => simp [hlock, hpackages, hfile] at h
  | some file =>
  cases hholds : file.hold.getD [] with
  | nil => simp [hlock, hpackages, hfile, hholds] at h
  | cons g gs =>
  have hp : root.packages = p :: ps := by
    rw [Root.packages, hlock, Option.bind_some, hpackages]
  have hg : root.holdList = g :: gs := by
    rw [Root.holdList, hfile, Option.bind_some, hholds]
  simp only [hlock, hpackages, hfile, hholds] at h
  obtain ⟨perHold, -, h⟩ := Option.bind_eq_some_iff.mp h
  obtain ⟨perCrate, hcrates, h⟩ := Option.bind_eq_some_iff.mp h
  have hnone : (perHold.map Prod.fst).flatten ++ perCrate.flatten.flatten = [] := by
    by_contra hne
    rw [if_pos hne] at h
    cases Option.some.inj h
  rw [hp, hg]
  intro hold hhold p' hp'
  have hcrate : hold.crate ∈ sorted ((g :: gs).map Hold.crate).toFinset := by
    rw [sorted, Finset.mem_sort, List.mem_toFinset]
    exact List.mem_map_of_mem hhold
  obtain ⟨perPackage, hmem, hrun⟩ := Python.exists_of_mapM hcrates hold.crate hcrate
  obtain ⟨errors, herrors, hrun⟩ := Python.exists_of_mapM hrun p' hp'
  have hflatten := (List.append_eq_nil_iff.mp hnone).2
  rw [List.flatten_eq_nil_iff] at hflatten
  rw [hrun, hflatten errors (List.mem_flatten_of_mem hmem herrors)]

/-- **Holds.**  When the guard passes, the holds of every id cover every package of their crate
if and only if the ids that are held on one crate cover the same packages of it. -/
theorem covered_iff {root : Root} {today : Python.Date} {lines : List String}
    (h : check py root today = some (0, lines)) :
    (∀ h ∈ root.holdList, ∀ p ∈ root.packages, p.name = h.crate →
      Covered py root.holdList h.id p) ↔ Agree py root.holdList root.packages := by
  constructor
  · intro hall h hh _ _ _ p hp hname _
    exact hall h hh p hp hname
  · intro hagree g hg p hp hname
    obtain ⟨g', hg', hcrate, hcovered⟩ :=
      covered_of_checkPackage hname (checkPackage_of_check h g hg p hp)
    exact hagree g hg g' hg' hcrate.symm p hp hname hcovered

/-- A hold of the version of the crate `leaf`, for which no version is safe. -/
def leafHold (id version dependent : String) : Hold where
  id := id
  kind := "vulnerability"
  crate := "leaf"
  version := version
  dependents := [dependent]
  fixed := []
  expires := "2026-12-31"
  until_ := "an upgrade"

/-- Two versions of `leaf`, each with a dependent, and the given holds, whose ids are ignored. -/
def leafRoot (holds : List Hold) : Root where
  path := "/gateway"
  lock := some ⟨some [⟨"mid", "1.0.0", some ["leaf 0.1.0"]⟩, ⟨"other", "2.0.0",
    some ["leaf 0.2.0"]⟩, ⟨"leaf", "0.1.0", none⟩, ⟨"leaf", "0.2.0", none⟩]⟩
  holds := some ⟨some holds⟩
  deny := some ⟨some ⟨some (holds.map fun h ↦ .string h.id)⟩⟩
  audit := some ⟨some ⟨some (holds.map fun h ↦ .string h.id)⟩⟩

/-- One advisory is held on version 0.1.0 and another one on version 0.2.0, and no version is
safe from either.  The guard passes, and the first advisory is hidden on version 0.2.0. -/
theorem covered_pooled : ∃ root lines,
    check Python.ascii root 739912 = some (0, lines) ∧
    ∃ h ∈ root.holdList, ∃ p ∈ root.packages, p.name = h.crate ∧
      ¬ Covered Python.ascii root.holdList h.id p := by
  let first := leafHold "RUSTSEC-0000-0001" "0.1.0" "mid 1.0.0"
  let second := leafHold "RUSTSEC-0000-0002" "0.2.0" "other 2.0.0"
  have hcheck : (check Python.ascii (leafRoot [first, second]) 739912).map Prod.fst = some 0 := by
    decide +kernel
  obtain ⟨⟨rc, lines⟩, hcheck, rfl⟩ := Option.map_eq_some_iff.mp hcheck
  refine ⟨leafRoot [first, second], lines, hcheck, first, List.mem_cons_self,
    ⟨"leaf", "0.2.0", none⟩, by simp [leafRoot, Root.packages], rfl, ?_⟩
  have hholds : (leafRoot [first, second]).holdList = [first, second] := rfl
  rw [hholds]
  rintro (⟨h, hh, hid, -, hversion⟩ | ⟨h, hh, -, r, hr, -⟩)
  · rcases List.mem_pair.mp hh with rfl | rfl
    · exact absurd hversion (by decide)
    · exact absurd hid (by decide)
  · rcases List.mem_pair.mp hh with rfl | rfl <;> cases hr

/-- The law where both advisories are held on both versions. -/
theorem covered_iff_leaf : ∃ root : Root, (root.holdList.map Hold.id).dedup.length = 2 ∧
    ∀ h ∈ root.holdList, ∀ p ∈ root.packages, p.name = h.crate →
      Covered Python.ascii root.holdList h.id p := by
  let first := leafHold "RUSTSEC-0000-0001"
  let second := leafHold "RUSTSEC-0000-0002"
  let root := leafRoot [first "0.1.0" "mid 1.0.0", first "0.2.0" "other 2.0.0",
    second "0.1.0" "mid 1.0.0", second "0.2.0" "other 2.0.0"]
  have hcheck : (check Python.ascii root 739912).map Prod.fst = some 0 := by decide +kernel
  obtain ⟨⟨rc, lines⟩, hcheck, rfl⟩ := Option.map_eq_some_iff.mp hcheck
  have hheld : ∀ h ∈ root.holdList, ∀ p ∈ root.packages, p.name = h.crate →
      ∃ g ∈ root.holdList, g.id = h.id ∧ g.crate = p.name ∧ g.version = p.version := by decide
  refine ⟨root, by decide, (covered_iff hcheck).mpr ?_⟩
  intro h hh _ _ _ p hp hname _
  exact Or.inl (hheld h hh p hp hname)

end AdvisoryGuard

end CloudGateway
