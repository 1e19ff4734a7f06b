/-
The tool that works on records and fields. A program is carried out for each line of the input, with its fields as
variables.

Texts that come from the input and read as numbers are compared as numbers.
-/
import Gleaner.Lua.Format
import Gleaner.Shell.Tools.AwkSyntax

namespace Gleaner.Shell.Tools.Awk

/-! ## Values -/

inductive Value where
  | unset
  | num (f : Float)
  | str (s : String)
  /-- a text of the input that reads as a number -/
  | numeric (s : String) (f : Float)
  deriving Inhabited

/-- the text of a number; integers are written out -/
def numberText (format : String) (f : Float) : String :=
  match Lua.floatToInt? f with
  | some i => Lua.intText i
  | none =>
    if f.isNaN then "nan" else if f.isInf then (if f < 0.0 then "-inf" else "inf")
    else
      match Lua.Format.parts (format.length + 1) format.toList with
      | .ok [.directive d] => String.ofList (Lua.Format.floatBody d f)
      | _ => String.ofList (Lua.signed f (Lua.generalText f.abs 6 false false))

namespace Value

def number : Value → Float
  | .unset => 0.0
  | .num f => f
  | .str s => (leadingFloat s.toList).1
  | .numeric _ f => f

def text (format : String) : Value → String
  | .unset => ""
  | .num f => numberText format f
  | .str s => s
  | .numeric s _ => s

def truthy : Value → Bool
  | .unset => false
  | .num f => f != 0.0
  | .str s => !s.isEmpty
  | .numeric _ f => f != 0.0

/-- a text of the input -/
def ofInput (s : String) : Value :=
  let cs := s.toList
  let (f, n) := leadingFloat cs
  if n > 0 && (cs.drop n).all (inClass "space") then .numeric s f else .str s

def ofBool (b : Bool) : Value := .num (if b then 1.0 else 0.0)

def isNumeric : Value → Bool
  | .num _ => true
  | .numeric _ _ => true
  | .unset => true
  | .str _ => false

end Value

/-! ## The state of a run -/

/-- why a part of a program is left -/
inductive Leave where
  | next
  | exit
  | break_
  | continue_
  | return_ (v : Value)
  | failed (message : String)
  | forever

structure State where
  vars : List (String × Value) := []
  arrays : List (String × List (String × Value)) := []
  /-- the variables of the function that runs -/
  locals : List (String × Value) := []
  /-- arrays of the caller that go by another name here -/
  aliases : List (String × String) := []
  fields : List String := []
  record : String := ""
  rest : List String
  /-- files that are read with `getline`, with what is left of them -/
  files : List (String × List String) := []
  out : List String := []
  messages : List String := []
  status : Nat := 0
  steps : Nat := 2000000
  seed : UInt64 := 1
  /-- how many arrays functions have made for themselves -/
  fresh : Nat := 0
  /-- the rules of two patterns that are within their range -/
  within : List Nat := []

abbrev Run := ExceptT Leave (StateM State)

def tick : Run Unit := do
  let s ← get
  if s.steps = 0 then throw .forever
  set { s with steps := s.steps - 1 }

def assoc (pairs : List (String × Value)) (k : String) (v : Value) : List (String × Value) :=
  if pairs.any (·.1 == k) then pairs.map fun (n, w) => if n == k then (n, v) else (n, w) else pairs ++ [(k, v)]

def var? (s : State) (name : String) : Value :=
  match s.locals.find? (·.1 == name) with
  | some (_, v) => v
  | none => ((s.vars.find? (·.1 == name)).map (·.2)).getD .unset

def textVar (s : State) (name : String) : String := (var? s name).text "%.6g"

def convert (v : Value) : Run String := return v.text (textVar (← get) "CONVFMT")

/-! ## Fields -/

def words (cs : List Char) : List String :=
  let (acc, cur) := cs.foldl (fun (acc, cur) c =>
    if c = ' ' || c = '\t' || c = '\n' then (if cur.isEmpty then acc else String.ofList cur.reverse :: acc, [])
    else (acc, c :: cur)) (([] : List String), ([] : List Char))
  (if cur.isEmpty then acc else String.ofList cur.reverse :: acc).reverse

/-- splits at matches of an expression -/
def splitRegex (r : List Regex) (cs : List Char) : Nat → (start from_ : Nat) → List String
  | 0, start, _ => [String.ofList (cs.drop start)]
  | fuel + 1, start, from_ =>
    match Regex.find r false cs from_ with
    | none => [String.ofList (cs.drop start)]
    | some groups =>
      let (lo, hi) := Regex.span groups 0
      if hi = lo then
        if lo < cs.length then splitRegex r cs fuel start (lo + 1) else [String.ofList (cs.drop start)]
      else String.ofList ((cs.take lo).drop start) :: splitRegex r cs fuel hi hi

/-- splits a text at a separator -/
def splitText (sep : String) (s : String) : List String :=
  if s.isEmpty then []
  else if sep == " " then words s.toList
  else if sep.isEmpty then s.toList.map String.singleton
  else if sep.length = 1 then s.splitOn sep
  else
    match Regex.parse true sep.toList with
    | .ok r => splitRegex r s.toList (s.length + 2) 0 0
    | .error _ => s.splitOn sep

def setVar (name : String) (v : Value) (s : State) : State := { s with vars := assoc s.vars name v }

def setFieldCount (s : State) : State := setVar "NF" (.num (Float.ofNat s.fields.length)) s

def setRecord (line : String) (s : State) : State :=
  setFieldCount { s with record := line, fields := splitText (textVar s "FS") line }

/-- puts the record together from its fields -/
def rebuild (s : State) : State := { s with record := String.intercalate (textVar s "OFS") s.fields }

def fieldAt (s : State) (i : Nat) : Value :=
  if i = 0 then .ofInput s.record
  else
    match s.fields[i - 1]? with
    | some f => .ofInput f
    | none => .unset

def setField (i : Nat) (text : String) (s : State) : State :=
  if i = 0 then setRecord text s
  else
    let fields := s.fields ++ List.replicate (i - s.fields.length) ""
    rebuild (setFieldCount { s with fields := fields.set (i - 1) text })

def assignVar (name : String) (v : Value) (s : State) : State :=
  if s.locals.any (·.1 == name) then { s with locals := assoc s.locals name v }
  else if name == "NF" then
    let n := v.number.toUInt64.toNat
    let fields := s.fields.take n ++ List.replicate (n - s.fields.length) ""
    rebuild (setFieldCount { s with fields := fields })
  else setVar name v s

/-! ## Arrays -/

def arrayName (s : State) (name : String) : String := ((s.aliases.find? (·.1 == name)).map (·.2)).getD name

def arrayOf (s : State) (name : String) : List (String × Value) :=
  ((s.arrays.find? (·.1 == arrayName s name)).map (·.2)).getD []

def setArray (name : String) (items : List (String × Value)) (s : State) : State :=
  let name := arrayName s name
  { s with arrays := (name, items) :: s.arrays.filter (·.1 != name) }

/-! ## Texts -/

/-- what a format gives -/
def formatText (format : List Char) (args : List Value) : Run String := do
  match Lua.Format.parts (format.length + 1) format with
  | .error _ => return String.ofList format
  | .ok parts =>
    let conv := textVar (← get) "CONVFMT"
    let rec go : List Lua.Format.Part → List Value → List Char
      | [], _ => []
      | .text cs :: rest, args => cs ++ go rest args
      | .directive d :: rest, args =>
        let v := args.headD .unset
        let here := match d.conversion with
          | 's' =>
            let cs := (v.text conv).toList
            Lua.Format.pad d false [] (match d.precision with
              | some n => cs.take n
              | none => cs)
          | 'c' =>
            let cs := match v with
              | .num f => [Char.ofNat (f.toUInt64.toNat % 256)]
              | v => (v.text conv).toList.take 1
            Lua.Format.pad d false [] cs
          | c =>
            if "diouxX".toList.contains c then
              let f := v.number
              let whole := if f < 0.0 then f.ceil else f.floor
              Lua.Format.intBody d ((Lua.floatToInt? whole).getD 0)
            else Lua.Format.floatBody d v.number
        here ++ go rest (args.drop 1)
    return String.ofList (go parts args)

/-- what replaces a match -/
def fillIn (found : List Char) : List Char → List Char
  | '\\' :: '&' :: rest => '&' :: fillIn found rest
  | '\\' :: '\\' :: rest => '\\' :: fillIn found rest
  | '&' :: rest => found ++ fillIn found rest
  | c :: rest => c :: fillIn found rest
  | [] => []

/-- replaces the first match or all of them, and how many there are -/
def substituteFrom (r : List Regex) (all : Bool) (with_ cs : List Char) :
    Nat → (start : Nat) → (ended : Option Nat) → List Char × Nat
  | 0, start, _ => (cs.drop start, 0)
  | fuel + 1, start, ended =>
    match Regex.find r false cs start with
    | none => (cs.drop start, 0)
    | some groups =>
      let (lo, hi) := Regex.span groups 0
      let before := (cs.take lo).drop start
      let step (from_ : Nat) (e : Option Nat) : List Char × Nat :=
        if all then substituteFrom r all with_ cs fuel from_ e else (cs.drop from_, 0)
      if lo = hi && ended = some lo then
        if lo < cs.length then
          let (rest, n) := substituteFrom r all with_ cs fuel (lo + 1) none
          (before ++ (cs.drop lo).take 1 ++ rest, n)
        else (before, 0)
      else
        let here := before ++ fillIn ((cs.take hi).drop lo) with_
        if lo = hi then
          if lo < cs.length then
            if !all then (here ++ cs.drop lo, 1)
            else
              let (rest, n) := step (lo + 1) none
              (here ++ (cs.drop lo).take 1 ++ rest, n + 1)
          else (here, 1)
        else
          let (rest, n) := step hi (some hi)
          (here ++ rest, n + 1)

def compareValues (op : String) (a b : Value) (conv : String) : Bool :=
  let o : Option Ordering :=
    if a.isNumeric && b.isNumeric then
      let x := a.number
      let y := b.number
      if x < y then some .lt else if x > y then some .gt else if x == y then some .eq else none
    else some (compare (a.text conv) (b.text conv))
  match op, o with
  | "<", some .lt => true
  | "<=", some .lt => true
  | "<=", some .eq => true
  | "==", some .eq => true
  | "!=", some .lt => true
  | "!=", some .gt => true
  | "!=", none => true
  | ">", some .gt => true
  | ">=", some .gt => true
  | ">=", some .eq => true
  | _, _ => false

def arithmetic (op : String) (x y : Float) : Run Value :=
  match op with
  | "+" => return .num (x + y)
  | "-" => return .num (x - y)
  | "*" => return .num (x * y)
  | "/" => if y == 0.0 then throw (.failed "division by zero") else return .num (x / y)
  | "%" => if y == 0.0 then throw (.failed "division by zero in %") else
      let q := x / y
      return .num (x - y * (if q < 0.0 then q.ceil else q.floor))
  | _ => return .num (x ^ y)

/-- takes the next record of the input -/
def nextRecord : Run (Option String) := do
  let s ← get
  match s.rest with
  | [] => return none
  | l :: rest =>
    set { s with rest := rest }
    return some l

def countRecord (s : State) : State :=
  let n := (var? s "NR").number + 1.0
  setVar "FNR" (.num n) (setVar "NR" (.num n) s)

structure Context where
  program : Program
  read : String → Except String String

/-! ## Running programs -/

mutual
def eval (c : Context) : Nat → Expr → Run Value
  | 0, _ => throw .forever
  | fuel + 1, e => do
    tick
    match e with
    | .num f => return .num f
    | .str s => return .str s
    | .regex r => return .ofBool (Regex.isMatch r false (← get).record.toList)
    | .group e => eval c fuel e
    | .var n => return var? (← get) n
    | .field e =>
      let i := (← eval c fuel e).number
      if i < 0.0 then throw (.failed "negative field index")
      return fieldAt (← get) i.toUInt64.toNat
    | .item n keys =>
      let k ← keyOf c fuel keys
      let items := arrayOf (← get) n
      match items.find? (·.1 == k) with
      | some (_, v) => return v
      | none =>
        modify (setArray n (items ++ [(k, .unset)]))
        return .unset
    | .assign op target value =>
      let v ← eval c fuel value
      let v ← if op == "=" then pure v
        else do
          let old ← eval c fuel target
          arithmetic (String.ofList (op.toList.take 1)) old.number v.number
      store c fuel target v
      return v
    | .step target by_ before =>
      let old := (← eval c fuel target).number
      store c fuel target (.num (old + by_))
      return .num (if before then old else old + by_)
    | .choose a b d => if (← eval c fuel a).truthy then eval c fuel b else eval c fuel d
    | .both a b =>
      if !(← eval c fuel a).truthy then return .ofBool false
      return .ofBool (← eval c fuel b).truthy
    | .either a b =>
      if (← eval c fuel a).truthy then return .ofBool true
      return .ofBool (← eval c fuel b).truthy
    | .not a => return .ofBool !(← eval c fuel a).truthy
    | .neg a => return .num (-(← eval c fuel a).number)
    | .plus a => return .num (← eval c fuel a).number
    | .bin op a b =>
      let x ← eval c fuel a
      let y ← eval c fuel b
      if op == " " then return .str ((← convert x) ++ (← convert y))
      else if comparisons.contains op then return .ofBool (compareValues op x y (textVar (← get) "CONVFMT"))
      else arithmetic op x.number y.number
    | .matches_ negated a r =>
      let s ← convert (← eval c fuel a)
      let r ← regexOf c fuel r
      return .ofBool (Regex.isMatch r false s.toList != negated)
    | .isIn keys n =>
      let k ← keyOf c fuel keys
      return .ofBool ((arrayOf (← get) n).any (·.1 == k))
    | .getline target file =>
      let line ← match file with
        | none => do
          let l ← nextRecord
          if l.isSome then modify countRecord
          pure (l.map fun l => (1.0, l))
        | some f => do
          let name ← convert (← eval c fuel f)
          let s ← get
          let known := s.files.find? (·.1 == name)
          let lines := match known with
            | some (_, ls) => some ls
            | none => (c.read name).toOption.map fun t => (linesOf t).1
          match lines with
          | none => pure (some (-1.0, ""))
          | some ls =>
            set { s with files := (name, ls.drop 1) :: s.files.filter (·.1 != name) }
            pure (ls.head?.map fun l => (1.0, l))
      match line with
      | none => return .num 0.0
      | some (r, l) =>
        if r > 0.0 then
          match target with
          | some t => store c fuel t (.ofInput l)
          | none => modify (setRecord l)
        return .num r
    | .call name args => callFunction c fuel name args

def keyOf (c : Context) : Nat → List Expr → Run String
  | 0, _ => throw .forever
  | _, [] => return ""
  | fuel + 1, e :: rest => do
    let v ← convert (← eval c fuel e)
    if rest.isEmpty then return v
    else
      let sep := textVar (← get) "SUBSEP"
      return v ++ sep ++ (← keyOf c fuel rest)

/-- an expression where a regular one is wanted -/
def regexOf (c : Context) : Nat → Expr → Run (List Regex)
  | 0, _ => throw .forever
  | fuel + 1, e => do
    match e with
    | .regex r => return r
    | .group e => regexOf c fuel e
    | e =>
      let s ← convert (← eval c fuel e)
      match Regex.parse true s.toList with
      | .ok r => return r
      | .error m => throw (.failed m)

def store (c : Context) : Nat → Expr → Value → Run Unit
  | 0, _, _ => throw .forever
  | fuel + 1, target, v => do
    match target with
    | .var n => modify (assignVar n v)
    | .group e => store c fuel e v
    | .field e =>
      let i := (← eval c fuel e).number.toUInt64.toNat
      let s ← convert v
      modify (setField i s)
    | .item n keys =>
      let k ← keyOf c fuel keys
      modify fun s => setArray n (assoc (arrayOf s n) k v) s
    | _ => throw (.failed "assignment to something that cannot be assigned to")

def evalAll (c : Context) : Nat → List Expr → Run (List Value)
  | 0, _ => throw .forever
  | _, [] => return []
  | fuel + 1, e :: rest => do
    let v ← eval c fuel e
    return v :: (← evalAll c fuel rest)

def callFunction (c : Context) : Nat → String → List Expr → Run Value
  | 0, _, _ => throw .forever
  | fuel + 1, name, args => do
    let text (i : Nat) : Run String := do
      match args[i]? with
      | some e => convert (← eval c fuel e)
      | none => return ""
    let number (i : Nat) : Run Float := do
      match args[i]? with
      | some e => return (← eval c fuel e).number
      | none => return 0.0
    match name with
    | "length" =>
      match args with
      | [] => return .num (Float.ofNat (← get).record.length)
      | [.var n] =>
        let s ← get
        if !(arrayOf s n).isEmpty then return .num (Float.ofNat (arrayOf s n).length)
        else return .num (Float.ofNat (← text 0).length)
      | _ => return .num (Float.ofNat (← text 0).length)
    | "substr" =>
      let s ← text 0
      let start ← number 1
      let count ← number 2
      let stop := if args.length > 2 then start + count else 1e18
      let rounded (f : Float) : Float := (f + 0.5).floor
      let lo := max 1.0 (rounded start)
      let hi := min (Float.ofNat s.length + 1.0) (rounded stop)
      if hi ≤ lo then return .str ""
      let a := lo.toUInt64.toNat - 1
      return .str (String.ofList ((s.toList.drop a).take (hi.toUInt64.toNat - 1 - a)))
    | "index" =>
      let s ← text 0
      let t ← text 1
      if t.isEmpty then return .num 0.0
      match s.splitOn t with
      | first :: _ :: _ => return .num (Float.ofNat (first.length + 1))
      | _ => return .num 0.0
    | "split" =>
      let s ← text 0
      let parts : List String ← match args[2]? with
        | some (Expr.regex r) => pure (if s.isEmpty then [] else splitRegex r s.toList (s.length + 2) 0 0)
        | some _ => do pure (splitText (← text 2) s)
        | none => do pure (splitText (textVar (← get) "FS") s)
      match args[1]? with
      | some (Expr.var n) =>
        modify (setArray n (parts.zipIdx.map fun (p, i) => (toString (i + 1), Value.ofInput p)))
      | _ => throw (.failed "split into something that is no array")
      return .num (Float.ofNat parts.length)
    | "sub" | "gsub" =>
      let r ← regexOf c fuel (args.getD 0 (.str ""))
      let with_ ← text 1
      let target := args.getD 2 (.field (.num 0.0))
      let s ← convert (← eval c fuel target)
      let (out, n) := substituteFrom r (name == "gsub") with_.toList s.toList (s.length + 2) 0 none
      if n > 0 then store c fuel target (.str (String.ofList out))
      return .num (Float.ofNat n)
    | "match" =>
      let s ← text 0
      let r ← regexOf c fuel (args.getD 1 (.str ""))
      let (start, length) := match Regex.find r false s.toList 0 with
        | some groups =>
          let (lo, hi) := Regex.span groups 0
          (Float.ofNat (lo + 1), Float.ofNat (hi - lo))
        | none => (0.0, -1.0)
      modify fun s => setVar "RLENGTH" (.num length) (setVar "RSTART" (.num start) s)
      return .num start
    | "sprintf" =>
      match ← evalAll c fuel args with
      | f :: rest => return .str (← formatText (← convert f).toList rest)
      | [] => return .str ""
    | "tolower" => return .str (String.ofList ((← text 0).toList.map Char.toLower))
    | "toupper" => return .str (String.ofList ((← text 0).toList.map Char.toUpper))
    | "int" =>
      let f ← number 0
      return .num (if f < 0.0 then f.ceil else f.floor)
    | "sqrt" => return .num (← number 0).sqrt
    | "exp" => return .num (← number 0).exp
    | "log" => return .num (← number 0).log
    | "sin" => return .num (← number 0).sin
    | "cos" => return .num (← number 0).cos
    | "atan2" => return .num (Float.atan2 (← number 0) (← number 1))
    | "rand" =>
      let x := (← get).seed * 6364136223846793005 + 1442695040888963407
      modify fun s => { s with seed := x }
      return .num (Float.ofNat (x.toNat / 2 ^ 11) / 9007199254740992.0)
    | "srand" =>
      let old := (← get).seed
      let n ← number 0
      modify fun s => { s with seed := n.toUInt64 }
      return .num (Float.ofNat old.toNat)
    | "close" | "fflush" => return .num 0.0
    | "system" => return .num 0.0
    | name =>
      match c.program.functions.find? (·.name == name) with
      | none => throw (.failed ("function " ++ name ++ " never defined"))
      | some f =>
        -- a plain name may stand for an array
        let values ← evalAll c fuel args
        let s ← get
        let named := (f.params.zip args).filterMap fun (p, a) =>
          match a with
          | .var n => some (p, arrayName s n)
          | _ => none
        let own := (f.params.drop args.length).zipIdx.map fun (p, i) => (p, " " ++ toString (s.fresh + i))
        let bound := f.params.zipIdx.map fun (p, i) => (p, values.getD i .unset)
        let (oldLocals, oldAliases) := (s.locals, s.aliases)
        set { s with locals := bound, aliases := named ++ own, fresh := s.fresh + own.length }
        let result ← try
            exec c fuel f.body
            pure Value.unset
          catch e =>
            match e with
            | .return_ v => pure v
            | e => throw e
        modify fun s => { s with locals := oldLocals, aliases := oldAliases }
        return result

def output (c : Context) : Nat → String → Option Expr → Run Unit
  | 0, _, _ => throw .forever
  | fuel + 1, text, target => do
    match target with
    | none => modify fun s => { s with out := text :: s.out }
    | some e =>
      let name ← convert (← eval c fuel e)
      if name == "/dev/stderr" || name == "cat 1>&2" then modify fun s => { s with messages := text :: s.messages }
      else if name == "/dev/stdout" || name == "cat" then modify fun s => { s with out := text :: s.out }

def exec (c : Context) : Nat → Stmt → Run Unit
  | 0, _ => throw .forever
  | fuel + 1, s => do
    tick
    match s with
    | .expr e => discard (eval c fuel e)
    | .print args target =>
      let s ← get
      let text ← match args with
        | [] => pure s.record
        | args => do
          let vs ← evalAll c fuel args
          let s ← get
          let parts := vs.map fun v => match v with
            | .num f => numberText (textVar s "OFMT") f
            | v => v.text "%.6g"
          pure (String.intercalate (textVar s "OFS") parts)
      output c fuel (text ++ textVar (← get) "ORS") target
    | .printf args target =>
      match ← evalAll c fuel args with
      | f :: rest => output c fuel (← formatText (← convert f).toList rest) target
      | [] => throw (.failed "printf: no format")
    | .block body => execAll c fuel body
    | .if_ cond yes no => if (← eval c fuel cond).truthy then exec c fuel yes else exec c fuel no
    | .while_ cond body => loop c fuel (some cond) (.block []) body
    | .doWhile body cond =>
      if ← guarded c fuel body then loop c fuel (some cond) (.block []) body
    | .for_ init cond step body =>
      exec c fuel init
      loop c fuel cond step body
    | .forIn v name body =>
      let keys := (arrayOf (← get) name).map (·.1)
      each c fuel v body keys
    | .next => throw .next
    | .exit e =>
      match e with
      | some e =>
        let n := (← eval c fuel e).number
        let status := if n < 0.0 then 256 - ((-n).toUInt64.toNat % 256) else n.toUInt64.toNat
        modify fun s => { s with status := status % 256 }
      | none => pure ()
      throw .exit
    | .break_ => throw .break_
    | .continue_ => throw .continue_
    | .return_ e =>
      match e with
      | some e => throw (.return_ (← eval c fuel e))
      | none => throw (.return_ .unset)
    | .delete name keys =>
      if keys.isEmpty then modify (setArray name [])
      else
        let k ← keyOf c fuel keys
        modify fun s => setArray name ((arrayOf s name).filter (·.1 != k)) s

def execAll (c : Context) : Nat → List Stmt → Run Unit
  | 0, _ => throw .forever
  | _, [] => return
  | fuel + 1, s :: rest => do
    exec c fuel s
    execAll c fuel rest

/-- carries out the body of a loop once; whether the loop goes on -/
def guarded (c : Context) : Nat → Stmt → Run Bool
  | 0, _ => throw .forever
  | fuel + 1, body => do
    try
      exec c fuel body
      return true
    catch e =>
      match e with
      | .break_ => return false
      | .continue_ => return true
      | e => throw e

def loop (c : Context) : Nat → Option Expr → Stmt → Stmt → Run Unit
  | 0, _, _, _ => throw .forever
  | fuel + 1, cond, step, body => do
    let on ← match cond with
      | some e => do pure (← eval c fuel e).truthy
      | none => pure true
    if on then
      if ← guarded c fuel body then
        exec c fuel step
        loop c fuel cond step body

def each (c : Context) : Nat → String → Stmt → List String → Run Unit
  | 0, _, _, _ => throw .forever
  | _, _, _, [] => return
  | fuel + 1, v, body, k :: rest => do
    modify (assignVar v (.ofInput k))
    if ← guarded c fuel body then each c fuel v body rest
end

/-- how deep calls and loops may go -/
def fuel : Nat := 1000000

/-- whether a rule applies to the record -/
def applies (c : Context) (index : Nat) (p : Pattern) : Run Bool := do
  match p with
  | .begin => return false
  | .end_ => return false
  | .always => return true
  | .when e => return (← eval c fuel e).truthy
  | .between a b =>
    let inside := (← get).within.contains index
    if inside || (← eval c fuel a).truthy then
      if (← eval c fuel b).truthy then modify fun s => { s with within := s.within.filter (· ≠ index) }
      else if !inside then modify fun s => { s with within := index :: s.within }
      return true
    else return false

def runRules (c : Context) : List ((Pattern × Stmt) × Nat) → Run Unit
  | [] => return
  | ((p, body), i) :: rest => do
    if ← applies c i p then exec c fuel body
    runRules c rest

def runRecords (c : Context) : Nat → Run Unit
  | 0 => return
  | n + 1 => do
    match ← nextRecord with
    | none => return
    | some l =>
      modify fun s => setRecord l (countRecord s)
      try runRules c c.program.rules.zipIdx
      catch e =>
        match e with
        | .next => pure ()
        | e => throw e
      runRecords c n

def runKind (c : Context) (begins : Bool) : Run Unit := do
  for (p, body) in c.program.rules do
    match p with
    | .begin => if begins then exec c fuel body
    | .end_ => if !begins then exec c fuel body
    | _ => pure ()

def runProgram (c : Context) (records : Nat) : Run Unit := do
  let needsInput := c.program.rules.any fun (p, _) =>
    match p with
    | .begin => false
    | _ => true
  try
    runKind c true
    if needsInput then runRecords c records
  catch e =>
    match e with
    | .exit => pure ()
    | .next => pure ()
    | e => throw e
  try runKind c false
  catch e =>
    match e with
    | .exit => pure ()
    | e => throw e

/-- a variable that is set by an argument -/
def assignment? (s : String) : Option (String × String) :=
  match s.toList.span (· ≠ '=') with
  | (name, '=' :: v) =>
    if name.head?.any (fun c => c.isAlpha || c = '_') && name.all isNamePart then
      some (String.ofList name, ((quoted [] (v ++ ['"'])).map (·.1)).getD (String.ofList v))
    else none
  | _ => none

def records (separator : String) (text : String) : List String :=
  if separator == "\n" then (linesOf text).1
  else if separator.isEmpty then
    (text.splitOn "\n\n").filterMap fun p =>
      let p := String.ofList (((p.toList.dropWhile (· = '\n')).reverse.dropWhile (· = '\n')).reverse)
      if p.isEmpty then none else some p
  else
    let parts := text.splitOn separator
    let parts := if parts.getLast? = some "" then parts.dropLast else parts
    if parts.getLast? = some "\n" then parts.dropLast else parts

end Awk

def awk (g : Given) : Result :=
  -- options come before the program only
  let rec split : Nat → List String → Options → Options
    | 0, _, o => o
    | fuel + 1, args, o =>
      let value (f : String) (a : String) (rest : List String) : Options :=
        if a.length > 2 then split fuel rest { o with flags := o.flags ++ [(f, String.ofList (a.toList.drop 2))] }
        else
          match rest with
          | v :: rest => split fuel rest { o with flags := o.flags ++ [(f, v)] }
          | [] => o
      match args with
      | "--" :: rest => { o with operands := rest }
      | a :: rest =>
        if a.startsWith "-F" then value "F" a rest
        else if a.startsWith "-v" then value "v" a rest
        else if a.startsWith "-f" then value "f" a rest
        else { o with operands := a :: rest }
      | [] => o
  let o := split (g.args.length + 1) g.args {}
  let given := (o.values ["f"]).filterMap fun f => (g.read f).toOption
  let (source, operands) := if given.isEmpty then (o.operands.headD "", o.operands.drop 1)
    else (String.intercalate "\n" given, o.operands)
  if source.isEmpty && given.isEmpty then g.refuse 2 "no program given"
  else
    match Awk.parse source with
    | .error e => g.refuse 2 e
    | .ok program =>
      let settings := (o.values ["v"]).filterMap Awk.assignment?
      let late := operands.filterMap Awk.assignment?
      let files := operands.filter fun a => (Awk.assignment? a).isNone
      let separator := match o.value? ["F"] with
        | some "t" => "\t"
        | some s => ((Awk.quoted [] (s.toList ++ ['"'])).map (·.1)).getD s
        | none => " "
      let basics : List (String × Awk.Value) :=
        [("FS", .str separator), ("OFS", .str " "), ("ORS", .str "\n"), ("RS", .str "\n"), ("NR", .num 0.0),
         ("NF", .num 0.0), ("FNR", .num 0.0), ("SUBSEP", .str "\x1c"), ("CONVFMT", .str "%.6g"), ("OFMT", .str "%.6g"),
         ("RSTART", .num 0.0), ("RLENGTH", .num (-1.0)), ("FILENAME", .str (files.headD ""))]
      let vars := settings.foldl (fun vs (n, v) => Awk.assoc vs n (.ofInput v)) basics
      let onlyBegins := program.rules.all fun (p, _) =>
        match p with
        | .begin => true
        | _ => false
      let i := inputs g files
      let state : Awk.State :=
        { vars := vars, rest := []
          arrays := [("ENVIRON", g.vars.map fun (n, v) => (n, Awk.Value.ofInput v))] }
      -- the separator of records may be set before the first of them is read
      let c : Awk.Context := { program := program, read := g.read }
      let (_, started) := (Awk.runKind c true).run { state with rest := (linesOf i.all).1 }
      let rs := Awk.textVar started "RS"
      let vars := late.foldl (fun vs (n, v) => Awk.assoc vs n (.ofInput v)) vars
      let records := Awk.records rs i.all
      let (outcome, s) := (Awk.runProgram c (records.length + 1)).run
        { state with vars := vars, rest := records }
      let out := String.join s.out.reverse
      let messages := i.messages ++ String.join s.messages.reverse
      let used := if i.fromInput && !onlyBegins then Used.all else .nothing
      let status := if i.messages.isEmpty then s.status else 2
      match outcome with
      | .ok _ => { out := out, messages := messages, status := status, used := used }
      | .error (.failed m) =>
        { out := out, messages := messages ++ g.name ++ ": " ++ m ++ "\n", status := 2, used := used }
      | .error .forever => { out := out, messages := messages, endless := true, used := used }
      | .error _ => { out := out, messages := messages, status := s.status, used := used }

end Gleaner.Shell.Tools
