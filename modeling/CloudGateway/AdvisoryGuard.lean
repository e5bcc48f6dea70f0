import Mathlib.Data.Finset.Sort
import Mathlib.Data.List.Lex
import Mathlib.Data.Prod.Lex
import Mathlib.Data.String.Basic
import CloudGateway.Library.Python

/-!
# The advisory guard

`scripts/advisory_hold_guard.py`, which compares the holds on security advisories with
`Cargo.lock` and the ignore lists.  The TOML files are given as parsed; a function that raises
an exception returns `none`.  `check` returns the exit code and the lines to print.
-/

namespace CloudGateway

namespace AdvisoryGuard

/-! ## Versions -/

/-- `(major, minor, patch, pre)` with `pre` a list of identifiers, empty for a release. -/
structure ParsedVersion where
  major : ℤ
  minor : ℤ
  patch : ℤ
  pre : List String
deriving DecidableEq

/-- `parse_version`. -/
def parseVersion (py : Python) (v : String) : Option ParsedVersion :=
  let (core, pre) := Python.partition '-' ((Python.split '+' v).headD "")
  match Python.split '.' core with
  | [major, minor, patch] => do
      let major ← py.int major
      let minor ← py.int minor
      let patch ← py.int patch
      return ⟨major, minor, patch, if pre ≠ "" then Python.split '.' pre else []⟩
  | _ => none

/-- What identifiers are compared by: `(0, int(i), "")` or `(1, 0, i)`. -/
abbrev IdentifierKey := ℕ ×ₗ ℤ ×ₗ String

/-- What versions are compared by. -/
abbrev Precedence := ℤ ×ₗ ℤ ×ₗ ℤ ×ₗ ℕ ×ₗ List IdentifierKey

/-- The key of an identifier. -/
def identifierKey (py : Python) (i : String) : Option IdentifierKey :=
  if py.isdigit i then (py.int i).map fun n ↦ toLex (0, toLex (n, ""))
  else some (toLex (1, toLex (0, i)))

/-- `precedence`: a pre-release sorts before its release, identifiers compare numerically when
both are numeric, numeric before alphanumeric, shorter first. -/
def precedence (py : Python) (v : ParsedVersion) : Option Precedence := do
  let ids ← v.pre.mapM (identifierKey py)
  return toLex (v.major, toLex (v.minor, toLex (v.patch,
    toLex (if v.pre = [] then 1 else 0, ids))))

/-- The operators, in the order in which they are tried. -/
def operators : List String := [">=", "<=", ">", "<", "="]

/-- One comparator of a range: its operator and its version. -/
def parseComparator (py : Python) (part : String) : Option (String × ParsedVersion) := do
  let part := Python.strip part
  let op ← operators.find? (Python.startswith part)
  let version ← parseVersion py (Python.strip (Python.dropChars op.length part))
  return (op, version)

/-- The comparison of an operator. -/
def compare (op : String) (a b : Precedence) : Bool :=
  if op = ">=" then a ≥ b
  else if op = "<=" then a ≤ b
  else if op = ">" then a > b
  else if op = "<" then a < b
  else a = b

/-- `c[:3] == v[:3]`. -/
def ParsedVersion.sameRelease (c v : ParsedVersion) : Bool :=
  c.major = v.major ∧ c.minor = v.minor ∧ c.patch = v.patch

/-- `in_range`: the version matches the comma-separated comparators; like cargo, a pre-release
matches only when one comparator names a pre-release of the same release. -/
def inRange (py : Python) (version rng : String) : Option Bool := do
  let v ← parseVersion py version
  let comparators ← (Python.split ',' rng).mapM (parseComparator py)
  if v.pre ≠ [] ∧ ¬ comparators.any fun c ↦ c.2.pre ≠ [] ∧ c.2.sameRelease v then
    return false
  let pv ← precedence py v
  comparators.allM fun c ↦ (precedence py c.2).map (compare c.1 pv ·)

/-! ## Files -/

/-- A package of `Cargo.lock`. -/
structure Package where
  name : String
  version : String
  dependencies : Option (List String)

/-- `Cargo.lock`. -/
structure LockFile where
  package : Option (List Package)

/-- A hold. -/
structure Hold where
  id : String
  kind : String
  crate : String
  version : String
  dependents : List String
  fixed : List String
  expires : String
  until_ : String

/-- `advisory_holds.toml`. -/
structure HoldsFile where
  hold : Option (List Hold)

/-- An entry of an ignore list: a string or a table with an id. -/
inductive IgnoreEntry where
  | string (id : String)
  | table (id : String)

/-- The table `advisories` of `deny.toml` or `audit.toml`. -/
structure Advisories where
  ignore : Option (List IgnoreEntry)

/-- `deny.toml` or `audit.toml`. -/
structure IgnoreFile where
  advisories : Option Advisories

/-- A repository, with those of its files that are there. -/
structure Root where
  path : String
  lock : Option LockFile
  holds : Option HoldsFile
  deny : Option IgnoreFile
  audit : Option IgnoreFile

/-- `root / name`, as a string. -/
def Root.join (root : Root) (name : String) : String :=
  if root.path.endsWith "/" then root.path ++ name else root.path ++ "/" ++ name

/-! ## Comparisons -/

/-- `ignored_ids`. -/
def ignoredIds (file : IgnoreFile) : Finset String :=
  (((file.advisories.bind Advisories.ignore).getD []).map fun
    | .string id => id
    | .table id => id).toFinset

/-- A dependency names the given version of the crate.  A bare name means the only version of
that crate. -/
def namesVersion (versions : List String) (name version dep : String) : Bool :=
  match Python.split ' ' dep with
  | [] => false
  | [name'] => name' = name ∧ versions = [version]
  | name' :: version' :: _ => name' = name ∧ version' = version

/-- `dependents_of`. -/
def dependentsOf (packages : List Package) (name version : String) : Finset String :=
  let versions := (packages.filter fun p ↦ p.name = name).map Package.version
  ((packages.filter fun p ↦ (p.dependencies.getD []).any (namesVersion versions name version)).map
    fun p ↦ p.name ++ " " ++ p.version).toFinset

/-- A sorted list of the elements of a set. -/
def sorted (s : Finset String) : List String := s.sort (· ≤ ·)

/-- The errors and the notes of one hold. -/
def checkHold (py : Python) (packages : List Package) (deny_ids audit_ids : Finset String)
    (today : Python.Date) (h : Hold) : Option (List String × List String) := do
  let label := h.id ++ " " ++ h.crate ++ " " ++ h.version
  let expires ← Python.fromisoformat h.expires
  let errors :=
    (if today > expires then
      [label ++ ": expired on " ++ h.expires ++ " (" ++ h.until_ ++ ")"] else []) ++
    (if h.id ∉ deny_ids then [label ++ ": not ignored in deny.toml"] else []) ++
    (if h.kind = "vulnerability" ∧ h.id ∉ audit_ids then
      [label ++ ": not ignored in .cargo/audit.toml"] else [])
  if ¬ packages.any fun p ↦ p.name = h.crate ∧ p.version = h.version then
    return (errors ++ [label ++
      ": no longer in Cargo.lock, the hold is stale: remove it and its ignore"], [])
  let got := dependentsOf packages h.crate h.version
  let want := h.dependents.toFinset
  let changed :=
    if got ≠ want then
      [label ++ ": dependents changed: new " ++ py.reprList (sorted (got \ want)) ++ ", gone " ++
        py.reprList (sorted (want \ got))] else []
  return (errors ++ changed, [label ++ ": held until " ++ h.expires ++ " (" ++
    toString got.card ++ " dependents)"])

/-- The errors of one package, if it is of the crate: another version must be held or fixed. -/
def checkPackage (py : Python) (holds : List Hold) (crate : String) (p : Package) :
    Option (List String) := do
  -- the advisory's own patched ranges, the same for every hold of the crate
  let ranges := (holds.filter fun h ↦ h.crate = crate).flatMap Hold.fixed
  let held := holds.map fun h ↦ (h.crate, h.version)
  if p.name ≠ crate ∨ (crate, p.version) ∈ held then
    return []
  if ← (py.iterate ranges).anyM (inRange py p.version) then
    return []
  return [crate ++ " " ++ p.version ++
    ": in Cargo.lock, not held and not fixed: the ignore would hide it"]

/-- `check`: the exit code and the lines to print. -/
def check (py : Python) (root : Root) (today : Python.Date) : Option (ℕ × List String) :=
  match root.lock with
  | none => some (2, [root.join "Cargo.lock" ++ " not found (nothing to compare)"])
  | some lock =>
      match lock.package.getD [] with
      | [] => some (2, ["Cargo.lock lists no packages (nothing to compare)"])
      | packages =>
          match root.holds with
          | none => some (2, [root.join "scripts/advisory_holds.toml" ++
              " not found (nothing to compare)"])
          | some holds_file =>
              match holds_file.hold.getD [] with
              | [] => some (2, ["advisory_holds.toml holds nothing (nothing to compare)"])
              | holds => do
                  let deny_ids := (root.deny.map ignoredIds).getD ∅
                  let audit_ids := (root.audit.map ignoredIds).getD ∅
                  let perHold ← holds.mapM (checkHold py packages deny_ids audit_ids today)
                  let perCrate ← (sorted (holds.map Hold.crate).toFinset).mapM fun crate ↦
                    packages.mapM (checkPackage py holds crate)
                  let errors := (perHold.map Prod.fst).flatten ++ perCrate.flatten.flatten
                  let notes := (perHold.map Prod.snd).flatten
                  if errors ≠ [] then
                    return (1, errors)
                  return (0, notes ++ [toString holds.length ++ " holds compared against " ++
                    toString packages.length ++ " packages"])

end AdvisoryGuard

end CloudGateway
