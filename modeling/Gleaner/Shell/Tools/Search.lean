/-
The tool that searches lines for regular expressions.
-/
import Gleaner.Shell.PosixRegex
import Gleaner.Shell.Tools.Lines

namespace Gleaner.Shell.Tools

/-- what is searched for -/
inductive Needle where
  | regex (r : List Regex)
  | fixed (s : List Char)

/-- the next match at or behind a place -/
def Needle.find? (fold : Bool) (n : Needle) (line : List Char) (start : Nat) : Option (Nat × Nat) :=
  match n with
  | .regex r => (Regex.find r fold line start).map fun groups => Regex.span groups 0
  | .fixed s =>
    let same (a b : Char) : Bool := a == b || (fold && a.toLower == b.toLower)
    let rec go : Nat → Nat → List Char → Option (Nat × Nat)
      | 0, _, _ => none
      | fuel + 1, i, cs =>
        if s.length ≤ cs.length && (s.zip cs).all fun (a, b) => same a b then some (i, i + s.length)
        else
          match cs with
          | _ :: rest => go fuel (i + 1) rest
          | [] => none
    go (line.length + 2) start (line.drop start)

structure SearchPlan where
  needles : List Needle
  fold : Bool
  wholeLine : Bool
  wholeWord : Bool

namespace SearchPlan

/-- whether a match stands where it may -/
def fits (p : SearchPlan) (chars : Array Char) (lo hi : Nat) : Bool :=
  let isWord (i : Nat) : Bool := (chars[i]?).any (inClass "word")
  if p.wholeLine then lo = 0 && hi = chars.size
  else if p.wholeWord then !(lo > 0 && isWord (lo - 1)) && !isWord hi
  else true

/-- the first match at or behind a place, the longest of those that start there -/
def next? (p : SearchPlan) (line : List Char) : Nat → Nat → Option (Nat × Nat)
  | 0, _ => none
  | fuel + 1, start =>
    let found := p.needles.filterMap fun n => n.find? p.fold line start
    let best := found.foldl (fun (best : Option (Nat × Nat)) (lo, hi) =>
      match best with
      | some (l, h) => if lo < l || (lo = l && hi > h) then some (lo, hi) else best
      | none => some (lo, hi)) none
    match best with
    | none => none
    | some (lo, hi) =>
      if p.fits line.toArray lo hi then some (lo, hi)
      else if lo < line.length then next? p line fuel (lo + 1)
      else none

def found? (p : SearchPlan) (line : List Char) (start : Nat) : Option (Nat × Nat) :=
  p.next? line (line.length + 2) start

/-- all matches of a line that are not empty -/
def matchesOf (p : SearchPlan) (line : List Char) : Nat → Nat → List (Nat × String)
  | 0, _ => []
  | fuel + 1, start =>
    match p.found? line start with
    | none => []
    | some (lo, hi) =>
      if hi = lo then if lo < line.length then matchesOf p line fuel (lo + 1) else []
      else (lo, String.ofList ((line.take hi).drop lo)) :: matchesOf p line fuel hi

end SearchPlan

def grep (g : Given) : Result :=
  let o := options "efmABC" ["regexp", "file", "max-count", "after-context", "before-context", "context"] g.args
  let given := o.values ["e", "regexp"]
  let fromFiles := (o.values ["f", "file"]).map fun f => (g.read f).toOption.map fun s => (linesOf s).1
  let (patterns, operands) := if given.isEmpty && fromFiles.isEmpty then (o.operands.take 1, o.operands.drop 1)
    else (given ++ (fromFiles.filterMap id).flatten, o.operands)
  let extended := o.has ["E", "P", "extended-regexp", "perl-regexp"] || g.name == "egrep"
  let fixed := o.has ["F", "fixed-strings"] || g.name == "fgrep"
  let number (names : List String) : Nat := ((o.value? names).bind String.toNat?).getD 0
  let needles : Except String (List Needle) := (patterns.flatMap (·.splitOn "\n")).mapM fun s =>
    if fixed then .ok (.fixed s.toList) else (Regex.parse extended s.toList).map .regex
  if patterns.isEmpty && given.isEmpty && fromFiles.isEmpty then g.refuse 2 "no pattern given"
  else
    match needles with
    | .error e => g.refuse 2 e
    | .ok needles =>
      let plan : SearchPlan :=
        { needles := needles, fold := o.has ["i", "y", "ignore-case"], wholeLine := o.has ["x", "line-regexp"],
          wholeWord := o.has ["w", "word-regexp"] }
      let invert := o.has ["v", "invert-match"]
      let i := inputs g operands
      let quiet := o.has ["q", "quiet", "silent"]
      let named := (i.texts.length > 1 || operands.length > 1 || o.has ["H"]) && !o.has ["h", "no-filename"]
      let most := ((o.value? ["m", "max-count"]).bind String.toNat?)
      let after := max (number ["A", "after-context"]) (number ["C", "context"])
      let before := max (number ["B", "before-context"]) (number ["C", "context"])
      let searched : List (String × List (String × Bool)) := i.texts.map fun (name, s) =>
        let lines := (linesOf s).1
        let marked := lines.map fun (l : String) => (l, (plan.found? l.toList 0).isSome != invert)
        let (_, marked) := marked.foldl (fun (n, acc) (l, hit) =>
          let hit := hit && most.all (n < ·)
          (if hit then n + 1 else n, (l, hit) :: acc)) (0, ([] : List (String × Bool)))
        (if name == "-" then "(standard input)" else name, marked.reverse)
      let any := searched.any fun (_, ls) => ls.any (·.2)
      let status := if any then 0 else 1
      let show_ (name : String) (n : Nat) (sep text : String) : String :=
        (if named then name ++ sep else "") ++ (if o.has ["n", "line-number"] then toString n ++ sep else "") ++ text
      let out :=
        if quiet then []
        else if o.has ["l", "files-with-matches"] then
          searched.filterMap fun (name, ls) => if ls.any (·.2) then some name else none
        else if o.has ["L", "files-without-match"] then
          searched.filterMap fun (name, ls) => if ls.any (·.2) then none else some name
        else if o.has ["c", "count"] then
          searched.map fun (name, ls) => (if named then name ++ ":" else "") ++ toString (ls.filter (·.2)).length
        else if o.has ["o", "only-matching"] then
          searched.flatMap fun (name, ls) =>
            ls.zipIdx.flatMap fun ((l, hit), k) =>
              if hit && !invert then
                (plan.matchesOf l.toList (l.length + 2) 0).map fun (_, t) => show_ name (k + 1) ":" t
              else []
        else
          searched.flatMap fun (name, ls) =>
            let hits := (ls.zipIdx.filter (·.1.2)).map (·.2)
            let near (k : Nat) : Bool := hits.any fun h => k ≤ h + after && h ≤ k + before
            let shown := (ls.zipIdx.filter fun (_, k) => near k)
            (shown.foldl (fun (acc, last) ((l, hit), k) =>
              let gap : List String := match last with
                | some j => if (after > 0 || before > 0) && k > j + 1 then ["--"] else []
                | none => []
              ((show_ name (k + 1) (if hit then ":" else "-") l :: gap) ++ acc, some k))
              (([] : List String), (none : Option Nat))).1.reverse
      let r := i.result (joinLines out) status
      if quiet && any then { r with status := 0 }
      else if !i.messages.isEmpty then { r with status := 2, messages := if o.has ["s"] then "" else r.messages }
      else r

end Gleaner.Shell.Tools
