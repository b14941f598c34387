import EraOne.TablesModel

set_option autoImplicit false

/- Formula evaluation of `calc.rs`. `none` stands for a panic: a slice off a char boundary, or a
lone quote taken for a quoted text. -/
namespace EraOne.Tables

open Scan

variable (rt : Runtime)

def colRow (addr : Str) : Option (UInt32 × UInt32) := parseAddr rt addr

def cellRaw (cells : StrMap Cell) (addr : Str) : Str :=
  (cells[rt.upper addr]?.map (·.value)).getD []

def cellNum (cells : StrMap Cell) (addr : Str) : rt.F64 :=
  (cells[rt.upper addr]?.bind fun cell => rt.parse cell.value).getD rt.zero

/-- `a..=b` on `u32`. -/
def spanU32 (a b : UInt32) : List UInt32 :=
  (List.range' a.toNat (b.toNat + 1 - a.toNat)).map UInt32.ofNat

def expandRange (range : Str) : List Str :=
  match range.splitOn ':' with
  | [single] => [rt.upper single]
  | first :: second :: _ =>
      match colRow rt first, colRow rt second with
      | some (c1, r1), some (c2, r2) =>
          (spanU32 (min c1 c2) (max c1 c2)).flatMap fun c =>
            (spanU32 (min r1 r2) (max r1 r2)).map fun r => addrOf c r
      | _, _ => []
  | [] => []

structure SplitState where
  out : List Str
  cur : Str
  depth : Int
  inStr : Bool

/-- One turn of the loop in `split_args`. The quotes themselves are dropped. -/
def splitArgsStep (state : SplitState) (ch : Char) : SplitState :=
  if ch = '"' then { state with inStr := !state.inStr }
  else if ch = '(' ∧ !state.inStr then
    { state with depth := state.depth + 1, cur := state.cur ++ [ch] }
  else if ch = ')' ∧ !state.inStr then
    { state with depth := state.depth - 1, cur := state.cur ++ [ch] }
  else if ch = ',' ∧ !state.inStr ∧ state.depth = 0 then
    { state with out := state.out ++ [trim state.cur], cur := [] }
  else { state with cur := state.cur ++ [ch] }

def splitArgs (s : Str) : List Str :=
  let state := s.foldl splitArgsStep ⟨[], [], 0, false⟩
  if (trim state.cur).isEmpty then state.out else state.out ++ [trim state.cur]

def printInt (n : Int) : Str :=
  if n < 0 then '-' :: Nat.toDigits 10 n.natAbs else Nat.toDigits 10 n.natAbs

def formatNum (v : rt.F64) : Str :=
  if rt.absLtEps (rt.sub v (rt.round v)) then printInt (rt.toI64 v) else rt.display v

/-- The text between the quotes; `&a[1..a.len() - 1]` panics on a lone quote. -/
def unquote (a : Str) : Option Str :=
  if a.length < 2 then none else some (a.drop 1).dropLast

def quotedBy (quote : Char) (a : Str) : Bool := a.head? = some quote ∧ a.getLast? = some quote

def evalAtom (cells : StrMap Cell) (atom : Str) : Option Str :=
  let a := trim atom
  if a.isEmpty then some []
  else if quotedBy '"' a ∨ quotedBy '\'' a then unquote a
  else
    match rt.parse a with
    | some n => some (formatNum rt n)
    | none => if (colRow rt a).isSome then some (cellRaw rt cells a) else some a

inductive Comparison where
  | ge | le | ne | bangNe | eq | gt | lt
  deriving DecidableEq, Repr

def Comparison.text : Comparison → Str
  | .ge => ">=".toList
  | .le => "<=".toList
  | .ne => "<>".toList
  | .bangNe => "!=".toList
  | .eq => "=".toList
  | .gt => ">".toList
  | .lt => "<".toList

/-- The order in which the operators are tried. -/
def comparisons : List Comparison := [.ge, .le, .ne, .bangNe, .eq, .gt, .lt]

/-- Numbers are compared as numbers, anything else for equality only. -/
def compareValues (op : Comparison) (left right : Str) : Bool :=
  match rt.parse left, rt.parse right with
  | some l, some r =>
      match op with
      | .gt => rt.lt r l
      | .lt => rt.lt l r
      | .ge => rt.le r l
      | .le => rt.le l r
      | .eq => rt.absLtEps (rt.sub l r)
      | .ne | .bangNe => rt.absGeEps (rt.sub l r)
  | _, _ =>
      match op with
      | .eq => left = right
      | .ne | .bangNe => left ≠ right
      | _ => false

/-- The first operator of the list that occurs in the condition, with its two sides. -/
def splitCond (c : Str) : List Comparison → Option (Comparison × Str × Str)
  | [] => none
  | op :: rest =>
      match splitOnce op.text c with
      | some halves => some (op, halves)
      | none => splitCond c rest

def truthy (v : Str) : Bool :=
  match rt.parse v with
  | some n => rt.ne n rt.zero
  | none => !v.isEmpty

def evalCond (cells : StrMap Cell) (cond : Str) : Option Bool :=
  let c := trim cond
  match splitCond c comparisons with
  | some (op, left, right) => do
      let left ← evalAtom rt cells left
      let right ← evalAtom rt cells right
      return compareValues rt op left right
  | none => do
      let v ← evalAtom rt cells c
      return truthy rt v

def unquoteCriteria (s : Str) : Str := trimMatches '\'' (trimMatches '"' (trim s))

/-- The operator at the start of a criterion, with what follows it. -/
def splitCriteria (c : Str) : List Comparison → Option (Comparison × Str)
  | [] => none
  | op :: rest =>
      match strip op.text c with
      | some right => some (op, right)
      | none => splitCriteria c rest

def countifMatch (value criteria : Str) : Bool :=
  let c := trim criteria
  match splitCriteria c comparisons with
  | some (op, rest) => compareValues rt op value (unquoteCriteria rest)
  | none => value = c ∨ value.map Char.toLower = c.map Char.toLower

/-- The name before the first parenthesis and what follows it, closing parentheses cut off. The
position is found in the upper-cased text and used in the original. -/
def splitCall (formula : Str) : Option (Option (Str × Str)) :=
  let f := trimStartMatches '=' (trim formula)
  match splitOnce ['('] (rt.upper f) with
  | some (name, _) => do
      let rest ← sliceFrom f (byteLen name + 1)
      return some (trim name, trimEndMatches ')' rest)
  | none => some none

def evalIf (cells : StrMap Cell) (args : List Str) : Option Str :=
  match args with
  | cond :: thenV :: rest => do
      if ← evalCond rt cells cond then evalAtom rt cells thenV
      else evalAtom rt cells (rest.headD [])
  | _ => some []

def evalCount (cells : StrMap Cell) (argsRaw : Str) : Str :=
  let hits := (expandRange rt (trim argsRaw)).filter fun a =>
    let raw := cellRaw rt cells a
    !raw.isEmpty && (rt.parse raw).isSome
  formatNum rt (rt.ofCount hits.length)

def evalCountif (cells : StrMap Cell) (args : List Str) : Str :=
  match args with
  | range :: criteria :: _ =>
      let hits := (expandRange rt (trim range)).filter fun a =>
        countifMatch rt (cellRaw rt cells a) (unquoteCriteria criteria)
      formatNum rt (rt.ofCount hits.length)
  | _ => []

def evalRound (cells : StrMap Cell) (args : List Str) : Str :=
  match args with
  | number :: rest =>
      let n := cellNum rt cells (trim number)
      let digits := (rest.head?.bind fun s => parseI32 (trim s)).getD 0
      let factor := rt.powTen (max 0 (min digits 10))
      formatNum rt (rt.div (rt.round (rt.mul n factor)) factor)
  | [] => []

def evalAggregate (cells : StrMap Cell) (name argsRaw : Str) : Str :=
  let nums := (expandRange rt (trim argsRaw)).map (cellNum rt cells)
  if nums.isEmpty then ['0']
  else if name = "SUM".toList then formatNum rt (rt.sum nums)
  else if name = "AVERAGE".toList ∨ name = "AVG".toList then
    formatNum rt (rt.div (rt.sum nums) (rt.ofCount nums.length))
  else if name = "MIN".toList then formatNum rt (nums.foldl rt.min rt.infinity)
  else if name = "MAX".toList then formatNum rt (nums.foldl rt.max rt.negInfinity)
  else []

def evalCall (cells : StrMap Cell) (name argsRaw : Str) : Option Str :=
  if name = "IF".toList then evalIf rt cells (splitArgs argsRaw)
  else if name = "COUNT".toList then some (evalCount rt cells argsRaw)
  else if name = "COUNTIF".toList then some (evalCountif rt cells (splitArgs argsRaw))
  else if name = "ROUND".toList then some (evalRound rt cells (splitArgs argsRaw))
  else some (evalAggregate rt cells name argsRaw)

def evalFormula (cells : StrMap Cell) (formula : Str) : Option Str :=
  match splitCall rt formula with
  | some (some (name, argsRaw)) => evalCall rt cells name argsRaw
  | some none => some []
  | none => none

/-- One turn of the loop in `recalc`. -/
def recalcStep (cells : StrMap Cell) (entry : Str × Str) : Option (StrMap Cell) :=
  match evalFormula rt cells entry.2 with
  | some val =>
      match cells[entry.1]? with
      | some cell => some (cells.insert entry.1 { cell with value := val })
      | none => some cells
  | none => none

/-- The formula cells in map order, collected before the pass. -/
def formulaEntries (cells : StrMap Cell) : List (Str × Str) :=
  (cells.toList.filter fun entry => !entry.2.formula.isEmpty).map fun entry =>
    (entry.1, entry.2.formula)

/-- `recalc` on the top-level cells, the only part of the sheet it reads and writes. -/
def recalcCells (cells : StrMap Cell) : Option (StrMap Cell) :=
  (formulaEntries cells).foldlM (recalcStep rt) cells

def recalc (sheet : EratSheet) : Option EratSheet := do
  let cells ← recalcCells rt sheet.cells
  return { sheet with cells := cells }

end EraOne.Tables
