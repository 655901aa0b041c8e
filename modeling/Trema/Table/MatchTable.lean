import Trema.Table.HashTable
import Trema.Table.Match

namespace Trema.Table

open Library
open OpenFlow (OfpMatch)

-- `default` stands for the null pointer where an operation returns an entry's data.
variable {δ σ : Type}

structure MatchEntry (δ : Type) where
  mtch : OfpMatch
  priority : UInt16
  data : δ
deriving DecidableEq, Repr

structure MatchTable (δ : Type) where
  exactTable : HashTable OfpMatch (MatchEntry δ)
  wildcardsTable : List (MatchEntry δ)

def initMatchTable : MatchTable δ := ⟨createHash,[]⟩

section Exact

def lookupExactMatchStrictEntry (exactTable : HashTable OfpMatch (MatchEntry δ)) (m : OfpMatch) :
    Option (MatchEntry δ) := lookupHashEntry compareMatchStrict hashExactMatchEntry exactTable m

def insertExactMatchEntry (exactTable : HashTable OfpMatch (MatchEntry δ)) (m : OfpMatch) (data : δ) :
    Bool × HashTable OfpMatch (MatchEntry δ) :=
  match lookupExactMatchStrictEntry exactTable m with
  | some _ => (false,exactTable)
  | none => (true,(insertHashEntry compareMatchStrict hashExactMatchEntry exactTable m ⟨m,0,data⟩).2)

def updateExactMatchEntry (exactTable : HashTable OfpMatch (MatchEntry δ)) (m : OfpMatch) (data : δ) :
    Bool × HashTable OfpMatch (MatchEntry δ) :=
  match lookupExactMatchStrictEntry exactTable m with
  | none => (false,exactTable)
  | some _ => (true,modifyHashEntry compareMatchStrict hashExactMatchEntry exactTable m
      fun entry => { entry with data := data })

def deleteExactMatchStrictEntry [Inhabited δ] (exactTable : HashTable OfpMatch (MatchEntry δ))
    (m : OfpMatch) : δ × HashTable OfpMatch (MatchEntry δ) :=
  match lookupExactMatchStrictEntry exactTable m with
  | none => (default,exactTable)
  | some entry =>
    (entry.data,(deleteHashEntry compareMatchStrict hashExactMatchEntry exactTable m).2)

end Exact

section Wildcards

def appendToTail {α : Type} (l : List α) (x : α) : List α := l ++ [x]

def insertInFront {α : Type} (l : List α) (x : α) : List α := x :: l

-- The sibling is given by its position: each element holds an allocation of its own.
def insertBefore {α : Type} : List α → Nat → α → List α
  | e :: e' :: l, 1, x => e :: x :: e' :: l
  | e :: l, n + 2, x => e :: insertBefore l (n + 1) x
  | l, _, _ => l

def isEntry (m : OfpMatch) (priority : UInt16) (entry : MatchEntry δ) : Bool :=
  entry.priority == priority && compareMatchStrict entry.mtch m

def findPlace (m : OfpMatch) (priority : UInt16) : List (MatchEntry δ) → Option Nat
  | [] => some 0
  | entry :: l =>
    if entry.priority < priority then some 0
    else if isEntry m priority entry then none
    else (findPlace m priority l).map (· + 1)

def insertWildcardsMatchEntry (wildcardsTable : List (MatchEntry δ)) (m : OfpMatch)
    (priority : UInt16) (data : δ) : Bool × List (MatchEntry δ) :=
  match findPlace m priority wildcardsTable with
  | none => (false,wildcardsTable)
  | some element =>
    if element = wildcardsTable.length then
      (true,appendToTail wildcardsTable ⟨m,priority,data⟩)
    else if element = 0 then
      (true,insertInFront wildcardsTable ⟨m,priority,data⟩)
    else
      (true,insertBefore wildcardsTable element ⟨m,priority,data⟩)

def lookupWildcardsMatchStrictEntry (m : OfpMatch) (priority : UInt16) :
    List (MatchEntry δ) → Option (MatchEntry δ)
  | [] => none
  | entry :: l =>
    if entry.priority < priority then none
    else if isEntry m priority entry then some entry
    else lookupWildcardsMatchStrictEntry m priority l

def lookupWildcardsMatchEntry (wildcardsTable : List (MatchEntry δ)) (m : OfpMatch) :
    Option (MatchEntry δ) := wildcardsTable.find? fun entry => compareMatch entry.mtch m

def updateWildcardsMatchEntry (wildcardsTable : List (MatchEntry δ)) (m : OfpMatch)
    (priority : UInt16) (data : δ) : Bool × List (MatchEntry δ) :=
  match lookupWildcardsMatchStrictEntry m priority wildcardsTable with
  | none => (false,wildcardsTable)
  | some _ =>
    (true,modifyFirst (isEntry m priority) (fun entry => { entry with data := data }) wildcardsTable)

def deleteWildcardsMatchStrictEntry [Inhabited δ] (wildcardsTable : List (MatchEntry δ))
    (m : OfpMatch) (priority : UInt16) : δ × List (MatchEntry δ) :=
  match lookupWildcardsMatchStrictEntry m priority wildcardsTable with
  | none => (default,wildcardsTable)
  | some entry => (entry.data,wildcardsTable.eraseP (isEntry m priority))

end Wildcards

section Table

def insertMatchEntry (t : MatchTable δ) (m : OfpMatch) (priority : UInt16) (data : δ) :
    Bool × MatchTable δ :=
  if exactMatch m then
    let r := insertExactMatchEntry t.exactTable m data
    (r.1,{ t with exactTable := r.2 })
  else
    let r := insertWildcardsMatchEntry t.wildcardsTable m priority data
    (r.1,{ t with wildcardsTable := r.2 })

def updateMatchEntry (t : MatchTable δ) (m : OfpMatch) (priority : UInt16) (data : δ) :
    Bool × MatchTable δ :=
  if exactMatch m then
    let r := updateExactMatchEntry t.exactTable m data
    (r.1,{ t with exactTable := r.2 })
  else
    let r := updateWildcardsMatchEntry t.wildcardsTable m priority data
    (r.1,{ t with wildcardsTable := r.2 })

variable [Inhabited δ]

def entryData (entry : Option (MatchEntry δ)) : δ := (entry.map MatchEntry.data).getD default

def lookupMatchStrictEntry (t : MatchTable δ) (m : OfpMatch) (priority : UInt16) : δ :=
  entryData (if exactMatch m then lookupExactMatchStrictEntry t.exactTable m
    else lookupWildcardsMatchStrictEntry m priority t.wildcardsTable)

def lookupMatchEntry (t : MatchTable δ) (m : OfpMatch) : δ :=
  entryData (match lookupExactMatchStrictEntry t.exactTable m with
    | some entry => some entry
    | none => lookupWildcardsMatchEntry t.wildcardsTable m)

def deleteMatchStrictEntry (t : MatchTable δ) (m : OfpMatch) (priority : UInt16) :
    δ × MatchTable δ :=
  if exactMatch m then
    let r := deleteExactMatchStrictEntry t.exactTable m
    (r.1,{ t with exactTable := r.2 })
  else
    let r := deleteWildcardsMatchStrictEntry t.wildcardsTable m priority
    (r.1,{ t with wildcardsTable := r.2 })

end Table

section Map

def selects (criteria : Option OfpMatch) (m : OfpMatch) : Bool :=
  criteria.all fun c => compareFilterMatch c m

def visitEntry (criteria : Option OfpMatch) (function : OfpMatch → UInt16 → δ → σ → σ)
    (s : σ) (entry : MatchEntry δ) : σ :=
  if selects criteria entry.mtch then function entry.mtch entry.priority entry.data s else s

-- Both walks fetch the next element before they call the function, so a function that removes the
-- entry it is given leaves the rest of the walk as it was.
def mapMatchTable (criteria : Option OfpMatch) (table : σ → MatchTable δ)
    (function : OfpMatch → UInt16 → δ → σ → σ) (s : σ) : σ :=
  let s := ((foreachHash (table s).exactTable).map Prod.snd).foldl (visitEntry criteria function) s
  (table s).wildcardsTable.foldl (visitEntry criteria function) s

end Map

end Trema.Table
