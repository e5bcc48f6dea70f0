import CloudGateway.AdvisoryGuard

/-!
# Dependents

`Cargo.lock` names a dependency as briefly as it can without ambiguity, so what a name means
depends on all packages of the file.  The guard reads each name back as the name and the version
of the package it was written for (`namesVersion_text`), and finds exactly the packages that
depend on a version of a crate (`mem_dependentsOf_lock`).
-/

namespace CloudGateway

namespace AdvisoryGuard

/-- What identifies a package.  Names and versions hold no blanks. -/
structure PackageId where
  name : String
  version : String
  /-- A package of the workspace itself has no source. -/
  source : Option String
  blank_notMem_name : ' ' ∉ name.toList
  blank_notMem_version : ' ' ∉ version.toList
deriving DecidableEq

/-- A package with the packages it depends on. -/
structure GraphNode where
  id : PackageId
  dependencies : List PackageId

/-- A finite dependency graph. -/
structure DependencyGraph where
  nodes : List GraphNode
  nodup : (nodes.map GraphNode.id).Nodup
  closed : ∀ x ∈ nodes, ∀ d ∈ x.dependencies, d ∈ nodes.map GraphNode.id

namespace DependencyGraph

variable (G : DependencyGraph)

/-- The packages of the graph. -/
def ids : List PackageId := G.nodes.map GraphNode.id

/-- A dependency as `Cargo.lock` writes it: the name, if only one package has it; with the
version, if only one package has both; and else with the source. -/
def dependencyText (d : PackageId) : String :=
  if (G.ids.filter fun e ↦ e.name = d.name).length = 1 then d.name
  else if (G.ids.filter fun e ↦ e.name = d.name ∧ e.version = d.version).length = 1 then
    d.name ++ " " ++ d.version
  else d.name ++ " " ++ d.version ++ (d.source.map fun s ↦ " " ++ ("(" ++ s ++ ")")).getD ""

/-- The packages of `Cargo.lock`; one without dependencies has no list of them. -/
def lock : List Package :=
  G.nodes.map fun x ↦ ⟨x.id.name, x.id.version,
    if x.dependencies = [] then none else some (x.dependencies.map G.dependencyText)⟩

/-! ## Reading names -/

/-- The versions of a crate in the file are those of its packages in the graph. -/
theorem versions_lock (n : String) : (G.lock.filter fun p ↦ p.name = n).map Package.version
    = (G.ids.filter fun e ↦ e.name = n).map PackageId.version := by
  rw [lock, ids, List.filter_map, List.filter_map, List.map_map, List.map_map]
  rfl

/-- The only package of a name is the only element of the list of all packages of that name. -/
theorem filter_name_eq {d : PackageId} (hd : d ∈ G.ids)
    (h : (G.ids.filter fun e ↦ e.name = d.name).length = 1) :
    G.ids.filter (fun e ↦ e.name = d.name) = [d] := by
  obtain ⟨e, he⟩ := List.length_eq_one_iff.mp h
  have hmem : d ∈ G.ids.filter fun e ↦ e.name = d.name :=
    List.mem_filter.mpr ⟨hd, decide_eq_true rfl⟩
  rw [he] at hmem ⊢
  rw [List.mem_singleton.mp hmem]

theorem split_name (d : PackageId) : Python.split ' ' d.name = [d.name] :=
  Python.split_of_notMem d.blank_notMem_name

theorem split_name_version (d : PackageId) :
    Python.split ' ' (d.name ++ " " ++ d.version) = [d.name, d.version] := by
  rw [String.append_assoc, show " " = Char.toString ' ' from rfl,
    Python.split_append d.blank_notMem_name, Python.split_of_notMem d.blank_notMem_version]

/-- What is behind the version is cut off. -/
theorem split_name_version_source (d : PackageId) (s : String) :
    Python.split ' ' (d.name ++ " " ++ d.version ++ (" " ++ s))
      = d.name :: d.version :: Python.split ' ' s := by
  rw [String.append_assoc, String.append_assoc, show " " = Char.toString ' ' from rfl,
    Python.split_append d.blank_notMem_name, Python.split_append d.blank_notMem_version]

/-- The text of a dependency means the name and the version of its package. -/
theorem namesVersion_text {d : PackageId} (hd : d ∈ G.ids) (n v : String) :
    namesVersion ((G.lock.filter fun p ↦ p.name = n).map Package.version) n v
      (G.dependencyText d) = true ↔ d.name = n ∧ d.version = v := by
  rw [versions_lock, dependencyText]
  by_cases hname : (G.ids.filter fun e ↦ e.name = d.name).length = 1
  · rw [if_pos hname, namesVersion, split_name]
    simp only [decide_eq_true_eq]
    refine and_congr_right ?_
    rintro rfl
    rw [G.filter_name_eq hd hname, List.map_singleton, List.singleton_inj]
  rw [if_neg hname]
  by_cases hversion :
      (G.ids.filter fun e ↦ e.name = d.name ∧ e.version = d.version).length = 1
  · rw [if_pos hversion, namesVersion, split_name_version]
    simp only [decide_eq_true_eq]
  rw [if_neg hversion]
  cases d.source with
  | none =>
      rw [Option.map_none, Option.getD_none, String.append_empty, namesVersion,
        split_name_version]
      simp only [decide_eq_true_eq]
  | some s =>
      rw [Option.map_some, Option.getD_some, namesVersion, split_name_version_source]
      simp only [decide_eq_true_eq]

/-- **Dependents.**  The dependents of a version of a crate are the packages with an edge to a
package of that name and version, whatever its source. -/
theorem mem_dependentsOf_lock (n v label : String) :
    label ∈ dependentsOf G.lock n v ↔ ∃ x ∈ G.nodes,
      (∃ d ∈ x.dependencies, d.name = n ∧ d.version = v) ∧
        label = x.id.name ++ " " ++ x.id.version := by
  have hnames : ∀ x ∈ G.nodes, ((if x.dependencies = [] then none
      else some (x.dependencies.map G.dependencyText)).getD []).any
        (namesVersion ((G.lock.filter fun p ↦ p.name = n).map Package.version) n v) = true ↔
      ∃ d ∈ x.dependencies, d.name = n ∧ d.version = v := by
    intro x hx
    have hdeps : (if x.dependencies = [] then none
        else some (x.dependencies.map G.dependencyText)).getD []
          = x.dependencies.map G.dependencyText := by
      by_cases hnil : x.dependencies = []
      · rw [hnil]
        rfl
      · rw [if_neg hnil, Option.getD_some]
    rw [hdeps, List.any_map, List.any_eq_true]
    refine exists_congr fun d ↦ and_congr_right fun hd ↦ ?_
    exact G.namesVersion_text (G.closed x hx d hd) n v
  rw [dependentsOf, List.mem_toFinset, List.mem_map]
  constructor
  · rintro ⟨p, hp, rfl⟩
    obtain ⟨hp, hdep⟩ := List.mem_filter.mp hp
    obtain ⟨x, hx, rfl⟩ := List.mem_map.mp hp
    exact ⟨x, hx, (hnames x hx).mp hdep, rfl⟩
  · rintro ⟨x, hx, hdep, rfl⟩
    exact ⟨_, List.mem_filter.mpr ⟨List.mem_map_of_mem hx, (hnames x hx).mpr hdep⟩, rfl⟩

/-- Two sources have the version 1.0 of `serde`, and another version is there too. -/
def serdeGraph : DependencyGraph where
  nodes :=
    let serde : PackageId := ⟨"serde", "1.0", some "registry", by decide, by decide⟩
    let fork : PackageId := ⟨"serde", "1.0", some "git", by decide, by decide⟩
    let old : PackageId := ⟨"serde", "0.9", some "registry", by decide, by decide⟩
    let app : PackageId := ⟨"app", "0.1", none, by decide, by decide⟩
    let tool : PackageId := ⟨"tool", "0.2", none, by decide, by decide⟩
    let bench : PackageId := ⟨"bench", "0.3", none, by decide, by decide⟩
    [⟨serde, []⟩, ⟨fork, [old]⟩, ⟨old, []⟩, ⟨app, [serde, tool]⟩, ⟨tool, [fork]⟩, ⟨bench, [old]⟩]
  nodup := by decide
  closed := by decide

theorem mem_dependentsOf_lock_serde :
    (serdeGraph.lock.map Package.dependencies = [none, some ["serde 0.9"], none,
      some ["serde 1.0 (registry)", "tool"], some ["serde 1.0 (git)"], some ["serde 0.9"]]) ∧
    ∀ label, label ∈ dependentsOf serdeGraph.lock "serde" "1.0" ↔
      label = "app 0.1" ∨ label = "tool 0.2" := by
  refine ⟨by decide, fun label ↦ ?_⟩
  rw [serdeGraph.mem_dependentsOf_lock]
  simp [serdeGraph]

end DependencyGraph

end AdvisoryGuard

end CloudGateway
