import Exg.Common.Types
import Exg.Support.Digits
import Exg.Support.Firsts
import Exg.Support.Machine
import Mathlib.Data.Prod.Lex
import Mathlib.Order.Lattice
import Std.Data.ExtTreeMap

/-!
# Deposit addresses

An address is written from the chain's name, the user's number and a counter of the chain, with
nothing between the two numbers.  Two users of a chain get the same address when their numbers
run together into the same digits; the reverse lookup then has the later one.
-/

namespace Exg

open Support

inductive Chain where
  | ethereum
  | bscMainnet
  | arbitrumOne
  | optimism
  | tron
  deriving DecidableEq, Repr

namespace Chain

def requiredConfirmations : Chain → Nat
  | .ethereum => 12
  | .bscMainnet => 15
  | .arbitrumOne | .optimism => 12
  | .tron => 19

def name : Chain → String
  | .ethereum => "ETH"
  | .bscMainnet => "BSC"
  | .arbitrumOne => "ARB"
  | .optimism => "OP"
  | .tron => "TRX"

/-- The chains in the order of their declaration; hash maps are stored in this order here. -/
def index : Chain → Nat
  | .ethereum => 0
  | .bscMainnet => 1
  | .arbitrumOne => 2
  | .optimism => 3
  | .tron => 4

private theorem index_injective : Function.Injective index := by
  intro first second same
  cases first <;> cases second <;> first | rfl | exact absurd same (by decide)

instance : LinearOrder Chain := LinearOrder.lift' index index_injective

instance : Std.LawfulEqOrd Chain where
  eq_of_compare := compare_eq_iff_eq.1

end Chain

structure DepositAddress where
  userId : UserId
  chain : Chain
  address : String
  derivationIndex : Nat
  deriving DecidableEq, Repr

/-- The pair that an address is for. -/
def DepositAddress.owner (issued : DepositAddress) : UserId × Chain :=
  (issued.userId, issued.chain)

/-- The order in which a map keyed by user and chain is stored here. -/
abbrev ownerOrder : UserId × Chain → UserId × Chain → Ordering :=
  (@lexOrd Nat Chain _ _).compare

/-- Generates and tracks deposit addresses per user per chain. -/
structure AddressManager where
  addresses : Std.ExtTreeMap (UserId × Chain) DepositAddress ownerOrder
  /-- Reverse lookup: address to its owner. -/
  addressLookup : Std.ExtTreeMap String (UserId × Chain)
  /-- Next derivation index per chain. -/
  nextIndex : Std.ExtTreeMap Chain Nat

/-- The placeholder address: `0x` and the text, filled up with zeros on the left to forty
characters. -/
def formatAddress (chain : Chain) (userId : UserId) (derivationIndex : Nat) : String :=
  "0x" ++ String.ofList
    ((chain.name ++ toString userId ++ toString derivationIndex).toList.leftpad 40 '0')

namespace AddressManager

def new : AddressManager := ⟨∅, ∅, ∅⟩

/-- Get or generate a deposit address for a user on a specific chain.  The index is a `u32`. -/
def getOrCreateAddress (manager : AddressManager) (userId : UserId) (chain : Chain) :
    AddressManager × DepositAddress :=
  match manager.addresses[(userId, chain)]? with
  | some issued => (manager, issued)
  | none =>
      let index := manager.nextIndex[chain]?.getD 0
      let issued : DepositAddress :=
        { userId := userId
          chain := chain
          address := formatAddress chain userId index
          derivationIndex := index }
      ({ addresses := manager.addresses.insert (userId, chain) issued
         addressLookup := manager.addressLookup.insert issued.address (userId, chain)
         nextIndex := manager.nextIndex.insert chain ((index + 1) % 2 ^ 32) }, issued)

/-- Lookup which user owns an address. -/
def lookupAddress (manager : AddressManager) (address : String) : Option (UserId × Chain) :=
  manager.addressLookup[address]?

/-- One call, and the address it returned. -/
def step (manager : AddressManager) (pair : UserId × Chain) :
    AddressManager × List ((UserId × Chain) × DepositAddress) :=
  let created := manager.getOrCreateAddress pair.1 pair.2
  (created.1, [(pair, created.2)])

/-- Different pairs have different addresses, and each address leads back to its pair. -/
structure Identifies (manager : AddressManager)
    (log : List ((UserId × Chain) × DepositAddress)) : Prop where
  distinct : ∀ first ∈ log, ∀ second ∈ log, first.1 ≠ second.1 →
    first.2.address ≠ second.2.address
  looksUp : ∀ issued ∈ log, manager.lookupAddress issued.2.address = some issued.1

/-! ## Reading an address -/

/-- Zeros on the left are told apart from a text that starts with something else. -/
theorem dropWhile_leftpad {width : Nat} {head : Char} {rest : List Char} (letter : head ≠ '0') :
    ((head :: rest).leftpad width '0').dropWhile (fun char => decide (char = '0')) =
      head :: rest := by
  rw [List.leftpad, List.dropWhile_append_of_pos fun char member => ?_]
  · exact List.dropWhile_cons_of_neg (by simpa using letter)
  · exact decide_eq_true (List.eq_of_mem_replicate member)

private theorem leftpad_inj {width : Nat} {head head' : Char} {rest rest' : List Char}
    (letter : head ≠ '0') (letter' : head' ≠ '0')
    (same : (head :: rest).leftpad width '0' = (head' :: rest').leftpad width '0') :
    head :: rest = head' :: rest' := by
  have trimmed := congrArg (List.dropWhile fun char => decide (char = '0')) same
  rwa [dropWhile_leftpad letter, dropWhile_leftpad letter'] at trimmed

/-- The name of a chain starts with a letter of its own. -/
theorem name_toList (chain : Chain) :
    ∃ head rest, chain.name.toList = head :: rest ∧ head ≠ '0' := by
  cases chain <;> exact ⟨_, _, rfl, by decide⟩

private theorem name_head_injective {first second : Chain}
    (same : first.name.toList.head? = second.name.toList.head?) : first = second := by
  cases first <;> cases second <;> first | rfl | exact absurd same (by decide)

/-- An address gives its chain and the digits of user and index as one string. -/
theorem formatAddress_eq_iff {chain chain' : Chain} {userId userId' : UserId}
    {index index' : Nat} :
    formatAddress chain userId index = formatAddress chain' userId' index' ↔
      chain = chain' ∧
        toString userId ++ toString index = toString userId' ++ toString index' := by
  constructor
  · intro same
    obtain ⟨head, rest, named, letter⟩ := name_toList chain
    obtain ⟨head', rest', named', letter'⟩ := name_toList chain'
    have padded := congrArg String.toList same
    simp only [formatAddress, String.toList_append, String.toList_ofList, List.append_assoc, named,
      named', List.cons_append, List.append_cancel_left_eq] at padded
    have texts := leftpad_inj letter letter' padded
    have heads : chain.name.toList.head? = chain'.name.toList.head? := by
      rw [named, named', (List.cons.inj texts).1]
      rfl
    have sameChain := name_head_injective heads
    subst sameChain
    have sameRest : rest = rest' := by
      rw [named] at named'
      exact (List.cons.inj named').2
    rw [sameRest] at texts
    refine ⟨rfl, String.toList_inj.1 ?_⟩
    rw [String.toList_append, String.toList_append]
    exact List.append_cancel_left (List.cons.inj texts).2
  · rintro ⟨rfl, digits⟩
    rw [formatAddress, formatAddress, String.append_assoc, digits, ← String.append_assoc]

/-! ## What the maps hold -/

/-- How many users asked for the chain before this one did, as a `u32`. -/
def indexIn (pairs : List (UserId × Chain)) (pair : UserId × Chain) : Nat :=
  (pairs.filter fun other => other.2 = pair.2).idxOf pair % 2 ^ 32

def issuedFor (pairs : List (UserId × Chain)) (pair : UserId × Chain) : DepositAddress where
  userId := pair.1
  chain := pair.2
  address := formatAddress pair.2 pair.1 (indexIn pairs pair)
  derivationIndex := indexIn pairs pair

/-- The addresses issued to pairs that come in this order. -/
def issuedTo (pairs : List (UserId × Chain)) : List DepositAddress :=
  pairs.map (issuedFor pairs)

section Stored

variable {manager : AddressManager} {pairs : List (UserId × Chain)} {pair : UserId × Chain}

private theorem owners_issuedTo (pairs : List (UserId × Chain)) :
    (issuedTo pairs).map DepositAddress.owner = pairs := by
  rw [issuedTo, List.map_map]
  exact List.map_id pairs

private theorem mem_issuedTo {issued : DepositAddress} :
    issued ∈ issuedTo pairs ↔ ∃ pair ∈ pairs, issuedFor pairs pair = issued := List.mem_map

/-- What a pair was issued does not change. -/
theorem issuedFor_append {after : List (UserId × Chain)} (member : pair ∈ pairs) :
    issuedFor (pairs ++ after) pair = issuedFor pairs pair := by
  have same : indexIn (pairs ++ after) pair = indexIn pairs pair := by
    rw [indexIn, indexIn, List.filter_append,
      List.idxOf_append_of_mem (List.mem_filter.2 ⟨member, decide_eq_true rfl⟩)]
  rw [issuedFor, issuedFor, same]

private theorem issuedFor_keepNew {other : UserId × Chain} (member : other ∈ pairs) :
    issuedFor (keepNew id pairs pair) other = issuedFor pairs other := by
  rw [keepNew]
  split
  · rfl
  · exact issuedFor_append member

/-- A new pair gets the next index of its chain. -/
theorem issuedTo_concat (fresh : pair ∉ pairs) :
    issuedTo (pairs ++ [pair]) = issuedTo pairs ++
      [{ userId := pair.1
         chain := pair.2
         address := formatAddress pair.2 pair.1
          ((pairs.filter fun other => other.2 = pair.2).length % 2 ^ 32)
         derivationIndex := (pairs.filter fun other => other.2 = pair.2).length % 2 ^ 32 }] := by
  have last : indexIn (pairs ++ [pair]) pair =
      (pairs.filter fun other => other.2 = pair.2).length % 2 ^ 32 := by
    have absent : pair ∉ pairs.filter fun other => other.2 = pair.2 :=
      fun member => fresh (List.mem_filter.1 member).1
    have own : [pair].filter (fun other => other.2 = pair.2) = [pair] := by simp
    rw [indexIn, List.filter_append, List.idxOf_append_of_notMem absent, own,
      List.idxOf_cons_self, Nat.add_zero]
  have earlier : pairs.map (issuedFor (pairs ++ [pair])) = issuedTo pairs :=
    List.map_congr_left fun other member => issuedFor_append member
  rw [issuedTo, List.map_append, earlier, List.map_singleton, issuedFor, last]

/-- The pairs that have asked, in order, fix the three maps. -/
structure Stores (manager : AddressManager) (pairs : List (UserId × Chain)) : Prop where
  stored : ∀ tested, manager.addresses[tested]? =
    oldestWith DepositAddress.owner (issuedTo pairs) tested
  reversed : ∀ address, manager.addressLookup[address]? =
    (newestWith DepositAddress.address (issuedTo pairs) address).map DepositAddress.owner
  counted : ∀ chain, manager.nextIndex[chain]?.getD 0 =
    (pairs.filter fun pair => pair.2 = chain).length % 2 ^ 32

theorem stores_new : new.Stores [] where
  stored tested := by simp [new, issuedTo]
  reversed address := by simp [new, issuedTo]
  counted chain := by simp [new]

theorem Stores.isSome_iff (stores : manager.Stores pairs) (pair : UserId × Chain) :
    manager.addresses[pair]?.isSome = true ↔ pair ∈ pairs := by
  rw [stores.stored, oldestWith_isSome_iff, owners_issuedTo]

/-- A call keeps the maps in step with the pairs, and returns what the pair was issued. -/
theorem Stores.step (stores : manager.Stores pairs) (pair : UserId × Chain) :
    (manager.getOrCreateAddress pair.1 pair.2).1.Stores (keepNew id pairs pair) ∧
      (manager.getOrCreateAddress pair.1 pair.2).2 = issuedFor (keepNew id pairs pair) pair := by
  have known := stores.isSome_iff pair
  rw [getOrCreateAddress]
  cases present : manager.addresses[pair]? with
  | some issued =>
      rw [present, Option.isSome_some, eq_self, true_iff] at known
      rw [keepNew_of_mem (by rwa [id, List.map_id])]
      refine ⟨stores, ?_⟩
      rw [stores.stored] at present
      obtain ⟨member, owned⟩ := of_oldestWith present
      obtain ⟨other, -, rfl⟩ := mem_issuedTo.1 member
      exact congrArg (issuedFor pairs) owned
  | none =>
      have fresh : pair ∉ pairs := by
        rw [present] at known
        exact fun member => absurd (known.2 member) (by simp)
      have freshOwner : pair ∉ (issuedTo pairs).map DepositAddress.owner := by
        rwa [owners_issuedTo]
      rw [keepNew_of_not_mem (by rwa [id, List.map_id])]
      have concat := issuedTo_concat fresh
      constructor
      · constructor
        · intro tested
          rw [concat, oldestWith_concat freshOwner, ← stores.stored, stores.counted]
          exact (Std.ExtTreeMap.getElem?_insert ..).trans (by
            simp only [Std.LawfulEqCmp.compare_eq_iff_eq]
            rfl)
        · intro address
          rw [concat, newestWith_concat, stores.counted]
          refine (Std.ExtTreeMap.getElem?_insert ..).trans ?_
          simp only [Std.LawfulEqCmp.compare_eq_iff_eq]
          split
          · rfl
          · exact stores.reversed address
        · intro chain
          rw [List.filter_append, List.length_append, stores.counted]
          refine (congrArg (Option.getD · 0) (Std.ExtTreeMap.getElem?_insert ..)).trans ?_
          simp only [Std.LawfulEqCmp.compare_eq_iff_eq]
          by_cases same : pair.2 = chain
          · simp [same]
          · simp [same, stores.counted]
      · have member : issuedFor (pairs ++ [pair]) pair ∈ issuedTo (pairs ++ [pair]) :=
          mem_issuedTo.2 ⟨pair, List.mem_append_right pairs List.mem_cons_self, rfl⟩
        rw [concat, List.mem_append, List.mem_singleton] at member
        rcases member with old | new
        · exact absurd (List.mem_map_of_mem (f := DepositAddress.owner) old) freshOwner
        · rw [new, stores.counted]

end Stored

private theorem mem_keepNew {pairs : List (UserId × Chain)} {pair other : UserId × Chain} :
    other ∈ keepNew id pairs pair ↔ other ∈ pairs ∨ other = pair := by
  have member : other ∈ (keepNew id pairs pair).map id ↔ other ∈ pairs.map id ∨ other = id pair :=
    mem_map_keepNew
  simpa only [List.map_id, id] using member

/-- After a run the maps and the log have the pairs that asked, each with what it was issued. -/
theorem stores_run (calls : List (UserId × Chain)) :
    (run step new calls).1.Stores (firstsBy id calls) ∧
      ∀ entry, entry ∈ (run step new calls).2 ↔
        ∃ pair ∈ firstsBy id calls, entry = (pair, issuedFor (firstsBy id calls) pair) := by
  apply run_induction step (motive := fun before manager log =>
    manager.Stores (firstsBy id before) ∧
      ∀ entry, entry ∈ log ↔
        ∃ pair ∈ firstsBy id before, entry = (pair, issuedFor (firstsBy id before) pair))
  · exact ⟨stores_new, by simp⟩
  · rintro before pair - ⟨stores, logs⟩
    obtain ⟨storesNext, returned⟩ := stores.step pair
    rw [firstsBy_concat]
    refine ⟨storesNext, fun entry => ?_⟩
    have now : (step (run step new before).1 pair).2 =
        [(pair, issuedFor (keepNew id (firstsBy id before) pair) pair)] := by
      rw [step, returned]
    rw [now, List.mem_append, List.mem_singleton, logs]
    constructor
    · rintro (⟨other, member, rfl⟩ | rfl)
      · exact ⟨other, mem_keepNew.2 (Or.inl member), by rw [issuedFor_keepNew member]⟩
      · exact ⟨pair, mem_keepNew.2 (Or.inr rfl), rfl⟩
    · rintro ⟨other, member, rfl⟩
      rcases mem_keepNew.1 member with old | rfl
      · exact Or.inl ⟨other, old, by rw [issuedFor_keepNew old]⟩
      · exact Or.inr rfl

/-- Two users of one chain whose number and index run together into the same digits are the same. -/
def DigitsTell (pairs : List (UserId × Chain)) : Prop :=
  ∀ first ∈ pairs, ∀ second ∈ pairs, first.2 = second.2 →
    toString first.1 ++ toString (indexIn pairs first) =
      toString second.1 ++ toString (indexIn pairs second) →
    first = second

/-- Addresses identify their owners if and only if, among the pairs in the order in which they
first asked, no two users of a chain have the same digits. -/
theorem addresses_identify_iff (calls : List (UserId × Chain)) :
    (run step new calls).1.Identifies (run step new calls).2 ↔ DigitsTell (firstsBy id calls) := by
  obtain ⟨stores, logs⟩ := stores_run calls
  have nodup : (firstsBy id calls).Nodup := by
    have nodupKeys : ((firstsBy id calls).map id).Nodup := nodup_firstsBy
    rwa [List.map_id] at nodupKeys
  generalize firstsBy id calls = pairs at stores logs nodup ⊢
  constructor
  · intro identifies first firstMember second secondMember sameChain digits
    by_contra apart
    refine identifies.distinct (first, issuedFor pairs first)
      ((logs _).2 ⟨first, firstMember, rfl⟩) (second, issuedFor pairs second)
      ((logs _).2 ⟨second, secondMember, rfl⟩) apart ?_
    exact formatAddress_eq_iff.2 ⟨sameChain, digits⟩
  · intro tell
    have addresses : ((issuedTo pairs).map DepositAddress.address).Nodup := by
      rw [issuedTo, List.map_map]
      refine List.Nodup.map_on (fun first firstMember second secondMember same => ?_) nodup
      obtain ⟨sameChain, digits⟩ := formatAddress_eq_iff.1 same
      exact tell first firstMember second secondMember sameChain digits
    constructor
    · intro first firstLogged second secondLogged apart same
      obtain ⟨pair, member, rfl⟩ := (logs first).1 firstLogged
      obtain ⟨other, otherMember, rfl⟩ := (logs second).1 secondLogged
      obtain ⟨sameChain, digits⟩ := formatAddress_eq_iff.1 same
      exact apart (tell pair member other otherMember sameChain digits)
    · intro issued logged
      obtain ⟨pair, member, rfl⟩ := (logs issued).1 logged
      rw [lookupAddress, stores.reversed,
        newestWith_of_mem addresses (mem_issuedTo.2 ⟨pair, member, rfl⟩)]
      rfl

/-- User 11 asks first, user 1 is the eleventh to ask. -/
def clashingCalls : List (UserId × Chain) :=
  [11, 2, 3, 4, 5, 6, 7, 8, 9, 10, 1].map fun userId => (userId, .ethereum)

/-- Both get the address that ends in `ETH110`: user 11 with index 0 and user 1 with index 10. -/
theorem clashingCalls_unidentified :
    ¬ (run step new clashingCalls).1.Identifies (run step new clashingCalls).2 := by
  intro identifies
  obtain ⟨-, logs⟩ := stores_run clashingCalls
  have asked : firstsBy id clashingCalls = clashingCalls := firstsBy_of_nodup (by decide)
  rw [asked] at logs
  refine identifies.distinct _ ((logs _).2 ⟨(11, .ethereum), by decide, rfl⟩)
    _ ((logs _).2 ⟨(1, .ethereum), by decide, rfl⟩) (by decide) ?_
  exact formatAddress_eq_iff.2 ⟨rfl, by decide⟩

end AddressManager
end Exg
