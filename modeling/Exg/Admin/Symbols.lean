import Exg.Common.Decimal
import Exg.Common.Types
import Exg.Support.Firsts
import Exg.Support.Machine
import Std.Data.ExtTreeMap

/-!
# The symbol registry

The admin service keeps the symbols under their ids and an index from names to ids.  Only a
name is checked when a symbol is added: an id that is there already is overwritten, and the
index then leads from the earlier name to the later symbol.
-/

namespace Exg

open Support

inductive SymbolType where
  | spot
  | perpetualLinear
  | perpetualInverse
  deriving DecidableEq, Repr

/-- Trading status of a symbol. -/
inductive SymbolStatus where
  | trading
  | preTrading
  | halted
  | settling
  | delisted
  deriving DecidableEq, Repr

structure SymbolEntry where
  symbolId : SymbolId
  name : String
  symbolType : SymbolType
  status : SymbolStatus
  tickSize : Decimal128
  lotSize : Decimal128
  minNotional : Decimal128
  maxLeverage : Decimal128
  makerFee : Decimal128
  takerFee : Decimal128
  createdAt : UnixMicros
  updatedAt : UnixMicros
  deriving DecidableEq, Repr

inductive AdminError where
  | symbolNotFound (symbolId : SymbolId)
  | duplicateSymbol (name : String)
  deriving DecidableEq, Repr

structure SymbolManager where
  symbols : Std.ExtTreeMap SymbolId SymbolEntry
  nameIndex : Std.ExtTreeMap String SymbolId

/-- A call, with the time at which an update is made. -/
inductive SymbolInput where
  | addSymbol (entry : SymbolEntry)
  | updateStatus (symbolId : SymbolId) (status : SymbolStatus) (now : UnixMicros)
  | updateFees (symbolId : SymbolId) (maker taker : Decimal128) (now : UnixMicros)
  deriving DecidableEq, Repr

/-- The entry that a call adds. -/
def SymbolInput.added? : SymbolInput → Option SymbolEntry
  | .addSymbol entry => some entry
  | _ => none

namespace SymbolManager

def new : SymbolManager := ⟨∅, ∅⟩

/-- Add a new symbol.  Fails if the name is already taken. -/
def addSymbol (manager : SymbolManager) (entry : SymbolEntry) :
    SymbolManager × Except AdminError Unit :=
  if entry.name ∈ manager.nameIndex then
    (manager, .error (.duplicateSymbol entry.name))
  else
    ({ nameIndex := manager.nameIndex.insert entry.name entry.symbolId
       symbols := manager.symbols.insert entry.symbolId entry }, .ok ())

/-- Change the entry of a symbol, if there is one. -/
def updateEntry (manager : SymbolManager) (symbolId : SymbolId)
    (change : SymbolEntry → SymbolEntry) : SymbolManager × Except AdminError Unit :=
  match manager.symbols[symbolId]? with
  | none => (manager, .error (.symbolNotFound symbolId))
  | some entry =>
      ({ manager with symbols := manager.symbols.insert symbolId (change entry) }, .ok ())

/-- Update the trading status of a symbol. -/
def updateStatus (manager : SymbolManager) (symbolId : SymbolId) (status : SymbolStatus)
    (now : UnixMicros) : SymbolManager × Except AdminError Unit :=
  manager.updateEntry symbolId fun entry => { entry with status := status, updatedAt := now }

/-- Update maker/taker fees for a symbol. -/
def updateFees (manager : SymbolManager) (symbolId : SymbolId) (maker taker : Decimal128)
    (now : UnixMicros) : SymbolManager × Except AdminError Unit :=
  manager.updateEntry symbolId fun entry =>
    { entry with makerFee := maker, takerFee := taker, updatedAt := now }

/-- Look up a symbol by name. -/
def getByName (manager : SymbolManager) (name : String) : Option SymbolEntry :=
  manager.nameIndex[name]?.bind fun symbolId => manager.symbols[symbolId]?

def apply (manager : SymbolManager) : SymbolInput → SymbolManager × Except AdminError Unit
  | .addSymbol entry => manager.addSymbol entry
  | .updateStatus symbolId status now => manager.updateStatus symbolId status now
  | .updateFees symbolId maker taker now => manager.updateFees symbolId maker taker now

/-- One call, and what it returned. -/
def step (manager : SymbolManager) (input : SymbolInput) :
    SymbolManager × List (SymbolInput × Except AdminError Unit) :=
  ((manager.apply input).1, [(input, (manager.apply input).2)])

/-- The names for which `add_symbol` returned `Ok`. -/
def Registered (log : List (SymbolInput × Except AdminError Unit)) (name : String) : Prop :=
  ∃ entry, (SymbolInput.addSymbol entry, .ok ()) ∈ log ∧ entry.name = name

/-- Every registered name finds a symbol of that name, and no two the same id. -/
structure Consistent (manager : SymbolManager)
    (log : List (SymbolInput × Except AdminError Unit)) : Prop where
  found : ∀ name, Registered log name →
    ∃ entry, manager.getByName name = some entry ∧ entry.name = name
  distinct : ∀ name other, Registered log name → Registered log other → name ≠ other →
    manager.nameIndex[name]? ≠ manager.nameIndex[other]?

/-! ## What the two maps hold -/

section Stored

variable {manager : SymbolManager} {entries : List SymbolEntry} {entry : SymbolEntry}

/-- The accepted entries fix the index and the names of the stored symbols: each name leads to
the id it came with, and each id to the name of the last entry that came with it. -/
structure Stores (manager : SymbolManager) (entries : List SymbolEntry) : Prop where
  indexed : ∀ name, manager.nameIndex[name]? =
    (oldestWith SymbolEntry.name entries name).map SymbolEntry.symbolId
  named : ∀ symbolId, manager.symbols[symbolId]?.map SymbolEntry.name =
    (newestWith SymbolEntry.symbolId entries symbolId).map SymbolEntry.name

theorem stores_new : new.Stores [] where
  indexed name := by simp [new]
  named symbolId := by simp [new]

private theorem Stores.mem_nameIndex (stores : manager.Stores entries) {name : String} :
    name ∈ manager.nameIndex ↔ name ∈ entries.map SymbolEntry.name := by
  rw [← Std.ExtTreeMap.isSome_getElem?_iff_mem, stores.indexed, Option.isSome_map,
    oldestWith_isSome_iff]

theorem Stores.addSymbol (stores : manager.Stores entries) :
    (manager.addSymbol entry).1.Stores (keepNew SymbolEntry.name entries entry) := by
  by_cases known : entry.name ∈ entries.map SymbolEntry.name
  · rw [keepNew_of_mem known, SymbolManager.addSymbol, if_pos (stores.mem_nameIndex.2 known)]
    exact stores
  · rw [keepNew_of_not_mem known, SymbolManager.addSymbol,
      if_neg fun member => known (stores.mem_nameIndex.1 member)]
    constructor
    · intro name
      rw [Std.ExtTreeMap.getElem?_insert, oldestWith_concat known, stores.indexed]
      by_cases same : entry.name = name <;> simp [same]
    · intro symbolId
      rw [Std.ExtTreeMap.getElem?_insert, newestWith_concat]
      by_cases same : entry.symbolId = symbolId
      · simp [same]
      · simp [same, stores.named]

private theorem Stores.updateEntry (stores : manager.Stores entries) {symbolId : SymbolId}
    {change : SymbolEntry → SymbolEntry} (keepsName : ∀ entry, (change entry).name = entry.name) :
    (manager.updateEntry symbolId change).1.Stores entries := by
  rw [SymbolManager.updateEntry]
  cases present : manager.symbols[symbolId]? with
  | none => exact stores
  | some entry =>
      refine ⟨stores.indexed, fun tested => ?_⟩
      rw [← stores.named, Std.ExtTreeMap.getElem?_insert]
      by_cases same : symbolId = tested
      · subst same
        simp [present, keepsName]
      · simp [same]

/-- The names for which the log shows success are those of the accepted entries. -/
def Logs (log : List (SymbolInput × Except AdminError Unit)) (entries : List SymbolEntry) : Prop :=
  ∀ name, Registered log name ↔ name ∈ entries.map SymbolEntry.name

private theorem registered_append {before after : List (SymbolInput × Except AdminError Unit)}
    {name : String} :
    Registered (before ++ after) name ↔ Registered before name ∨ Registered after name := by
  simp only [Registered, List.mem_append, or_and_right, exists_or]

private theorem registered_addSymbol (stores : manager.Stores entries) (entry : SymbolEntry)
    (name : String) :
    Registered [(.addSymbol entry, (manager.addSymbol entry).2)] name ↔
      entry.name ∉ entries.map SymbolEntry.name ∧ entry.name = name := by
  rw [← stores.mem_nameIndex, SymbolManager.addSymbol]
  by_cases known : entry.name ∈ manager.nameIndex
  · rw [if_pos known]
    simp [Registered, known]
  · rw [if_neg known]
    simp [Registered, known]

private theorem not_registered_of_update {input : SymbolInput} {result : Except AdminError Unit}
    {name : String} (update : input.added? = none) : ¬ Registered [(input, result)] name := by
  rintro ⟨added, member, -⟩
  have same : SymbolInput.addSymbol added = input :=
    congrArg Prod.fst (List.mem_singleton.1 member)
  rw [← same] at update
  exact absurd update (by simp [SymbolInput.added?])

end Stored

/-- After a run the maps store the entries that are the first with their name. -/
theorem stores_run (inputs : List SymbolInput) :
    (run step new inputs).1.Stores (firstsBy SymbolEntry.name (inputs.filterMap (·.added?))) ∧
      Logs (run step new inputs).2 (firstsBy SymbolEntry.name (inputs.filterMap (·.added?))) := by
  apply run_induction step (motive := fun before manager log =>
    manager.Stores (firstsBy SymbolEntry.name (before.filterMap (·.added?))) ∧
      Logs log (firstsBy SymbolEntry.name (before.filterMap (·.added?))))
  · exact ⟨stores_new, fun name => by simp [Registered]⟩
  · rintro before input - ⟨stores, logs⟩
    rw [List.filterMap_append]
    cases input with
    | addSymbol entry =>
        have added : [SymbolInput.addSymbol entry].filterMap (·.added?) = [entry] := rfl
        rw [added, firstsBy_concat]
        refine ⟨stores.addSymbol, fun name => ?_⟩
        have now := registered_addSymbol stores entry name
        rw [registered_append, mem_map_keepNew, logs name]
        refine or_congr_right' fun fresh => now.trans ?_
        exact ⟨fun both => both.2.symm, fun same => ⟨same ▸ fresh, same.symm⟩⟩
    | updateStatus symbolId status now =>
        have added : [SymbolInput.updateStatus symbolId status now].filterMap (·.added?) = [] := rfl
        rw [added, List.append_nil]
        refine ⟨stores.updateEntry fun _ => rfl, fun name => ?_⟩
        rw [registered_append, logs name]
        exact or_iff_left (not_registered_of_update rfl)
    | updateFees symbolId maker taker now =>
        have added : [SymbolInput.updateFees symbolId maker taker now].filterMap (·.added?) = [] :=
          rfl
        rw [added, List.append_nil]
        refine ⟨stores.updateEntry fun _ => rfl, fun name => ?_⟩
        rw [registered_append, logs name]
        exact or_iff_left (not_registered_of_update rfl)

private theorem Stores.nameIndex_of_mem {manager : SymbolManager} {entries : List SymbolEntry}
    {entry : SymbolEntry} (stores : manager.Stores entries)
    (nodup : (entries.map SymbolEntry.name).Nodup) (member : entry ∈ entries) :
    manager.nameIndex[entry.name]? = some entry.symbolId := by
  rw [stores.indexed, oldestWith_of_mem nodup member, Option.map_some]

private theorem Stores.name_of_mem {manager : SymbolManager} {entries : List SymbolEntry}
    {entry : SymbolEntry} (stores : manager.Stores entries)
    (nodup : (entries.map SymbolEntry.symbolId).Nodup) (member : entry ∈ entries) :
    manager.symbols[entry.symbolId]?.map SymbolEntry.name = some entry.name := by
  rw [stores.named, newestWith_of_mem nodup member, Option.map_some]

/-- The registry is consistent if and only if the entries that are the first with their name
come with different ids. -/
theorem consistent_iff (inputs : List SymbolInput) :
    (run step new inputs).1.Consistent (run step new inputs).2 ↔
      ((firstsBy SymbolEntry.name (inputs.filterMap (·.added?))).map
        SymbolEntry.symbolId).Nodup := by
  obtain ⟨stores, logs⟩ := stores_run inputs
  have names : ((firstsBy SymbolEntry.name (inputs.filterMap (·.added?))).map
      SymbolEntry.name).Nodup := nodup_firstsBy
  generalize firstsBy SymbolEntry.name (inputs.filterMap (·.added?)) = entries
    at stores logs names ⊢
  generalize (run step new inputs).1 = manager at stores ⊢
  generalize (run step new inputs).2 = log at logs ⊢
  constructor
  · intro consistent
    refine List.Nodup.map_on (fun first firstMember second secondMember sameId => ?_)
      (List.Nodup.of_map _ names)
    refine List.inj_on_of_nodup_map names firstMember secondMember ?_
    by_contra apart
    refine consistent.distinct first.name second.name
      ((logs _).2 (List.mem_map_of_mem firstMember))
      ((logs _).2 (List.mem_map_of_mem secondMember)) apart ?_
    rw [stores.nameIndex_of_mem names firstMember, stores.nameIndex_of_mem names secondMember,
      sameId]
  · intro ids
    constructor
    · intro name registered
      obtain ⟨entry, member, rfl⟩ := List.mem_map.1 ((logs name).1 registered)
      have stored := stores.name_of_mem ids member
      rw [getByName, stores.nameIndex_of_mem names member, Option.bind_some]
      exact Option.map_eq_some_iff.1 stored
    · intro name other registered otherRegistered apart same
      obtain ⟨first, firstMember, rfl⟩ := List.mem_map.1 ((logs name).1 registered)
      obtain ⟨second, secondMember, rfl⟩ := List.mem_map.1 ((logs other).1 otherRegistered)
      rw [stores.nameIndex_of_mem names firstMember, stores.nameIndex_of_mem names secondMember,
        Option.some_inj] at same
      exact apart (congrArg _ (List.inj_on_of_nodup_map ids firstMember secondMember same))

/-- A spot symbol as an administrator adds it. -/
def spotEntry (symbolId : SymbolId) (name : String) : SymbolEntry where
  symbolId := symbolId
  name := name
  symbolType := .spot
  status := .trading
  tickSize := .one
  lotSize := .one
  minNotional := .one
  maxLeverage := .one
  makerFee := 0
  takerFee := 0
  createdAt := 0
  updatedAt := 0

def reusedIdInputs : List SymbolInput :=
  [.addSymbol (spotEntry 1 "BTCUSDT"), .addSymbol (spotEntry 1 "ETHUSDT")]

/-- The second symbol takes the place of the first, whose name now finds it. -/
theorem reusedId_inconsistent :
    ¬ (run step new reusedIdInputs).1.Consistent (run step new reusedIdInputs).2 := by
  intro consistent
  have registered : Registered (run step new reusedIdInputs).2 "BTCUSDT" :=
    ⟨spotEntry 1 "BTCUSDT", by decide, rfl⟩
  obtain ⟨entry, found, named⟩ := consistent.found "BTCUSDT" registered
  have other : (run step new reusedIdInputs).1.getByName "BTCUSDT" =
      some (spotEntry 1 "ETHUSDT") := by decide
  rw [other, Option.some_inj] at found
  rw [← found] at named
  exact absurd named (by decide)

end SymbolManager
end Exg
