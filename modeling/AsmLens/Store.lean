import AsmLens.Compilation
import AsmLens.Gas.Merge

/-!
# The store

The store holds the compilation that is installed, and numbers compilations: the
*generation* grows by one whenever a compilation is installed or the store is
emptied. Gas is attached only for the generation that it was asked for; a table
whose compilation has been replaced is retired, and a retired table is not changed
any more.

Replaced tables stay in the archive, since a reader may still hold one. A table is
referred to by its generation and its contract.
-/

namespace AsmLens

/-- A reference to a table: the generation that it was installed in, and its contract. -/
structure TableRef where
  generation : Nat
  contract : String
deriving DecidableEq, Repr

/-- The installed compilation and those before it. -/
structure Store where
  generation : Nat
  installed : Option Compilation
  /-- The digest of the source that the installed compilation was made from, if it is known. -/
  digest : Option String
  /-- The tables of replaced compilations, oldest first. -/
  archive : List (TableRef × RegionTable)

namespace Compilation

/-- A compilation and its tables with the number of a generation. -/
def stamp (c : Compilation) (generation : Nat) : Compilation :=
  { c with
    generation
    tables := c.tables.mapValues fun _ t => { t with generation } }

/-- A compilation with one table changed. -/
def updateTable (c : Compilation) (contract : String) (t : RegionTable) : Compilation :=
  { c with tables := c.tables.update contract fun _ => t }

end Compilation

namespace Store

/-- The store before the first compilation. -/
def empty : Store := ⟨0, none, none, []⟩

instance : EmptyCollection Store := ⟨empty⟩

instance : Inhabited Store := ⟨empty⟩

/-- The number that the next compilation will have. -/
def nextGeneration (s : Store) : Nat := s.generation + 1

/-- The names of the installed contracts. -/
def contracts (s : Store) : List String := (s.installed.map Compilation.contracts).getD []

/-- The installed tables with their contracts. -/
def tables (s : Store) : List (String × RegionTable) :=
  (s.installed.map fun c => c.tables.toList).getD []

/-- The installed table of a contract. -/
def find? (s : Store) (contract : String) : Option RegionTable := do (← s.installed).find? contract

/-! ## References -/

/-- The reference to the installed table of a contract. -/
def refer? (s : Store) (contract : String) : Option TableRef :=
  (s.find? contract).map fun _ => ⟨s.generation, contract⟩

/-- The table that a reference means, installed or replaced. -/
def resolve? (s : Store) (r : TableRef) : Option RegionTable :=
  if r.generation = s.generation then s.find? r.contract else s.archive.lookup r

/-- The store with the table that a reference means changed. -/
def update (s : Store) (r : TableRef) (t : RegionTable) : Store :=
  if r.generation = s.generation then
    { s with installed := s.installed.map fun c => c.updateTable r.contract t }
  else { s with archive := s.archive.map fun p => if p.1 = r then (r, t) else p }

/-! ## Installing -/

/-- The archive with the installed tables, retired. -/
def archived (s : Store) : List (TableRef × RegionTable) :=
  s.archive ++ s.tables.map fun p => (⟨s.generation, p.1⟩, p.2.retire)

/-- The store with a compilation in place of the installed one. -/
def install (s : Store) (c : Compilation) (digest : Option String) : Store where
  generation := s.nextGeneration
  installed := some (c.stamp s.nextGeneration)
  digest := digest
  archive := s.archived

/-- The store without a compilation. -/
def clear (s : Store) : Store := ⟨s.nextGeneration, none, none, s.archived⟩

/-- The part of the program that the store's notes come from. -/
def origin : String := "store"

/-- The note on a compilation that was installed. -/
def installNote (s : Store) (c : Compilation) : Note :=
  ⟨.debug, origin, "Installed generation " ++ toString s.nextGeneration ++ " (" ++
    toString c.tables.size ++ " contracts)"⟩

/-- The store with the compilation of a source, with notes. -/
def runBuild (s : Store) (source : String) (output : Doc) : Traced Store := do
  let c ← Compilation.runBuild source output s.nextGeneration
  Traced.tell [s.installNote c]
  return s.install c (some (sourceDigest source))

/-- The store with the compilation of a source. -/
def build (s : Store) (source : String) (output : Doc) : Result Store :=
  (s.runBuild source output).outcome

/-! ## Asking and attaching -/

/-- Fails unless a source is the one that the installed compilation was made from. -/
def checkSource (s : Store) (source : String) : Except Problem Unit :=
  let actual := sourceDigest source
  if s.digest = some actual then .ok ()
  else .error (.sourceChanged s.generation s.digest actual)

/-- The table that gas for a contract goes to if it was asked for in a generation. -/
def target (s : Store) (contract : String) (generation : Int) :
    Except Problem (Compilation × RegionTable) :=
  match s.installed with
  | none => .error (.staleGeneration contract generation s.generation)
  | some c =>
    if generation ≠ s.generation then .error (.staleGeneration contract generation s.generation)
    else
      match c.find? contract with
      | none => .error (.contractGone contract generation s.generation)
      | some t => .ok (c, t)

/-- Gas goes to the table of its contract, if it was asked for in the installed generation. -/
theorem target_eq_ok {s : Store} {contract : String} {generation : Int} {c : Compilation}
    {t : RegionTable} :
    s.target contract generation = .ok (c, t) ↔
      s.installed = some c ∧ generation = s.generation ∧ c.find? contract = some t := by
  unfold target
  constructor
  · intro h
    split at h
    · exact nomatch h
    · next d hs =>
      split at h
      · exact nomatch h
      · next hg =>
        split at h
        · exact nomatch h
        · next u ht =>
          obtain ⟨rfl, rfl⟩ := Prod.mk.inj (Except.ok.inj h)
          exact ⟨hs, Decidable.not_not.mp hg, ht⟩
  · rintro ⟨hs, hg, ht⟩
    rw [hs]
    simp only [hg, ht]
    exact if_neg fun hne => hne rfl

/-- The store with gas attached to the table of a contract, with notes. -/
def runMerge (s : Store) (contract : String) (ms : Measurements) (generation : Int) :
    Traced Store := do
  let (c, t) ← s.target contract generation
  let t ← t.runMerge ms c.tree (c.selectorsOf contract)
  return { s with installed := some (c.updateTable contract t) }

/-- The store with gas attached to the table of a contract. -/
def merge (s : Store) (contract : String) (ms : Measurements) (generation : Int) : Result Store :=
  (s.runMerge contract ms generation).outcome

/-- The store with gas attached to a table that a reader holds. -/
def mergeHeld (s : Store) (r : TableRef) (ms : Measurements) : Result Store :=
  match s.resolve? r with
  | none => .ok s
  | some t => do return s.update r (← t.merge ms .null .null)

/-! ## In place -/

/-- A compilation installed in place, part by part. -/
def installInPlace (c : Compilation) (digest : Option String) : InPlace Store Unit := do
  InPlace.write fun s => { s with archive := s.archived }
  InPlace.write fun s => { s with generation := s.nextGeneration }
  InPlace.write fun s => { s with installed := some (c.stamp s.generation) }
  InPlace.write fun s => { s with digest }

/-- A source compiled in place. -/
def buildInPlace (source : String) (output : Doc) : InPlace Store Unit := do
  let s ← InPlace.get
  let c ← InPlace.check (Compilation.runBuild source output s.nextGeneration)
  installInPlace c (some (sourceDigest source))
  InPlace.check (Traced.tell [s.installNote c])

/-- Gas attached in place to the table of a contract. -/
def mergeInPlace (contract : String) (ms : Measurements) (generation : Int) :
    InPlace Store Unit := do
  let s ← InPlace.get
  let (c, t) ← InPlace.check (s.target contract generation)
  InPlace.on (fun _ => t) (fun s t => { s with installed := some (c.updateTable contract t) })
    (RegionTable.mergeInPlace ms c.tree (c.selectorsOf contract))

/-- A compilation is installed in full or not at all. -/
theorem buildInPlace_eq (s : Store) (source : String) (output : Doc) :
    (buildInPlace source output).run s = (s.runBuild source output).settle s := by
  rw [buildInPlace, InPlace.run_get_bind]
  refine InPlace.settle_bind fun c _ => ?_
  rfl

/-- Gas is attached in full or not at all. -/
theorem mergeInPlace_eq (s : Store) (contract : String) (ms : Measurements) (generation : Int) :
    (mergeInPlace contract ms generation).run s = (s.runMerge contract ms generation).settle s := by
  rw [mergeInPlace, InPlace.run_get_bind]
  refine InPlace.settle_bind ?_
  rintro ⟨c, t⟩ ht
  obtain ⟨hc, -, ht⟩ := target_eq_ok.mp (Traced.outcome_lift_eq_ok.mp ht)
  have hsame : { s with installed := some (c.updateTable contract t) } = s := by
    rw [Compilation.updateTable, Ledger.update_self ht, ← hc]
  refine (InPlace.settle_on (t.mergeInPlace_eq ms c.tree (c.selectorsOf contract)) hsame).trans ?_
  rfl

end Store

end AsmLens
