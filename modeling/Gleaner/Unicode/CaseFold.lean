/-
Simple case folding. The table lists the groups of characters that fold to one another; a character outside every
group folds only to itself. Closing a set under folding adds, for each group it meets, the rest of that group.
-/
import Gleaner.Unicode.CharSet

namespace Gleaner.Unicode

/-- the groups, packed: per group its size less two, its first member and the steps to the others -/
def foldRow : String :=
  "AhCgBABgBABgBABgBABgBABgBABgBABgBABgBABgBBBgB_lIABgBABgBABgBABgBABgBABgBABgBBBgBsIABgBABgBABgBABgBABgBABgBABgBB7C" ++
    "nXgBALgBABgBABgBABgBABgBBBgBmiIABgBABgBABgBABgBABgBABgBABgBABgBABgBABgBABgBABgBABgBABgBABgBABgBABgBACgBABgBA" ++
    "BgBABgBABgBABgBABgBAB_tHAgB5DABBACBACBACBACBACBACBACBACBACBACBACBACBACBACBACBACBACBACBACBACBACBACBACBAEBACBA" ++
    "CBADBACBACBACBACBACBACBACBADBACBACBACBACBACBACBACBACBACBACBACBACBACBACBACBACBACBACBACBACBACBACBADBACBACBADjG" ++
    "AByGABBACBACuGABBACtGABtGABBADvCABqGABrGABBACtGABvGABhDABzGABxGABBACjFABhypBABzGAB1GABiEAB2GABBACBACBAC6GABB" ++
    "AC6GADBAC6GABBAC5GAB5GABBACBAC7GABBAEBAD4BBFBBBDBBBDBBADBACBACBACBACBACBACBACBADBACBACBACBACBACBACBACBACBBDB" ++
    "BADBAEBACBACBACBACBACBACBACBACBACBACBACBACBACBACBACBACBACBACBACBAEBACBACBACBACBACBACBACBACBAIrxKABBADoxKAB_x" ++
    "KAB_xKABBADlCABnCABBACBACBACBACBAC_wKAB8wKAB-wKAKvqpBAFrqpBADnrpBABoppBABkqpBAEkqpBAB3vKABhqpBAF9vKAMnvKAFjq" ++
    "pBAFqppBAW1opBAByopBCnF0CgBlgHArBBACBAEBAFiEABiEABiEAC0DAHmBAClBABlBABlBACgCAC_BAB_BABjiHABgBBBgBeABgBABgBBB" ++
    "gBgCABgBABgBCBgBZjBBCgB2BABgBACgBABgBABgBBBgBWBBgBwBBCfBABgBABgBBBgBPABgBABgBBBgB9qHABgBABgBAFzhHAfIAJBACBAC" ++
    "BACBACBACBACBACBACBACBACBACBAEHAFBADBAGwCABwCABwCABwCABwCABwCABwCABwCABwCABwCABwCABwCABwCABwCABwCABwCABgBABg" ++
    "BBBgBuiGABgBBBgBtiGABgBABgBABgBABgBABgBABgBABgBABgBABgBBBgBkiGABgBABgBBBgBiiGCBgBiiGBABgBABgBABgBABgBABgBABg" ++
    "BABgBBBgB8hGABgBABgBABgBABgBABgBAxBBBCBkhGACBACBACBACBACBACBACBACBACBACBACBACBACBACBACBAKBACBACBACBACBACBACB" ++
    "ACBACBACBACBACBACBACBACBACBACBACBACBACBACBACBACBACBACBACBACBACPABBACBACBACBACBACBACBADBACBACBACBACBACBACBACB" ++
    "ACBACBACBACBACBACBACBACBACBACBACBACBACBACBACBACBACBACBACBACBACBACBACBACBACBACBACBACBACBACBACBACBACBACBACBACB" ++
    "ACBACBACBACBADwBABwBABwBABwBABwBABwBABwBABwBABwBABwBABwBABwBABwBABwBABwBABwBABwBABwBABwBABwBABwBABwBABwBABwB" ++
    "ABwBABwBABwBABwBABwBABwBABwBABwBABwBABwBABwBABwBABwBABwBAq6CgjHABgjHABgjHABgjHABgjHABgjHABgjHABgjHABgjHABgjH" ++
    "ABgjHABgjHABgjHABgjHABgjHABgjHABgjHABgjHABgjHABgjHABgjHABgjHABgjHABgjHABgjHABgjHABgjHABgjHABgjHABgjHABgjHABg" ++
    "jHABgjHABgjHABgjHABgjHABgjHABgjHACgjHAGgjHADg-CABg-CABg-CABg-CABg-CABg-CABg-CABg-CABg-CABg-CABg-CABg-CABg-CA" ++
    "Bg-CABg-CABg-CABg-CABg-CABg-CABg-CABg-CABg-CABg-CABg-CABg-CABg-CABg-CABg-CABg-CABg-CABg-CABg-CABg-CABg-CABg-" ++
    "CABg-CABg-CABg-CABg-CABg-CABg-CABg-CABg-CADg-CABg-CABg-CAhVw-lBABw-lBABw-lBABw-lBABw-lBABw-lBABw-lBABw-lBABw" ++
    "-lBABw-lBABw-lBABw-lBABw-lBABw-lBABw-lBABw-lBABw-lBABw-lBABw-lBABw-lBABw-lBABw-lBABw-lBABw-lBABw-lBABw-lBABw" ++
    "-lBABw-lBABw-lBABw-lBABw-lBABw-lBABw-lBABw-lBABw-lBABw-lBABw-lBABw-lBABw-lBABw-lBABw-lBABw-lBABw-lBABw-lBABw" ++
    "-lBABw-lBABw-lBABw-lBABw-lBABw-lBABw-lBABw-lBABw-lBABw-lBABw-lBABw-lBABw-lBABw-lBABw-lBABw-lBABw-lBABw-lBABw" ++
    "-lBABw-lBABw-lBABw-lBABw-lBABw-lBABw-lBABw-lBABw-lBABw-lBABw-lBABw-lBABw-lBABw-lBABw-lBABw-lBABw-lBABw-lBABI" ++
    "ABIABIABIABIABIBzkCiuiBBABBAwHkwiBAEm3DAR4xiBAyDBACBACBACBACBACBACBACBACBACBACBACBACBACBACBACBACBACBACBACBAC" ++
    "BACBACBACBACBACBACBACBACBACBACBACBACBACBACBACBACBACBACBACBACBACBACBACBACBACBACBACBBCB6BACBACBACBACBACBACBACB" ++
    "ACBACBACBACBACBACBACBACBACBACBACBACBACBACBACBACBACBACBACBAMBACBACBACBACBACBACBACBACBACBACBACBACBACBACBACBACB" ++
    "ACBACBACBACBACBACBACBACBACBACBACBACBACBACBACBACBACBACBACBACBACBACBACBACBACBACBACBACBACBACBACBACIABIABIABIABI" ++
    "ABIABIABIAJIABIABIABIABIABIALIABIABIABIABIABIABIABIAJIABIABIABIABIABIABIABIAJIABIABIABIABIABIAMIACIACIACIAJI" ++
    "ABIABIABIABIABIABIABIAJqCABqCAB2CAB2CAB2CAB2CABkDABkDABgEABgEABwDABwDAB-DAB-DADIABIABIABIABIABIABIABIAJIABIA" ++
    "BIABIABIABIABIABIAJIABIABIABIABIABIABIABIAJIABIACJAQJANIABIAPIABIAEHAOJA_JcAuBQABQABQABQABQABQABQABQABQABQAB" ++
    "QABQABQABQABQABQAUBAzZaABaABaABaABaABaABaABaABaABaABaABaABaABaABaABaABaABaABaABaABaABaABaABaABaABaAx5BwBABwB" ++
    "ABwBABwBABwBABwBABwBABwBABwBABwBABwBABwBABwBABwBABwBABwBABwBABwBABwBABwBABwBABwBABwBABwBABwBABwBABwBABwBABwB" ++
    "ABwBABwBABwBABwBABwBABwBABwBABwBABwBABwBABwBABwBABwBABwBABwBABwBABwBABwBABwBAxBBAHBACBACBAHBADBALBACBACBACBA" ++
    "CBACBACBACBACBACBACBACBACBACBACBACBACBACBACBACBACBACBACBACBACBACBACBACBACBACBACBACBACBACBACBACBACBACBACBACBA" ++
    "CBACBACBACBACBACBACBACBACBACBAJBACBAFBAuqeBACBACBACBACBAEBACBACBACBACBACBACBACBACBACBACBACBACBACBACBACBACBAU" ++
    "BACBACBACBACBACBACBACBACBACBACBACBACBACBAoEBACBACBACBACBACBACBAEBACBACBACBACBACBACBACBACBACBACBACBACBACBACBA" ++
    "CBACBACBACBACBACBACBACBACBACBACBACBACBACBACBACBALBACBADBACBACBACBACBAFBAFBACBACwBACBACBACBACBACBACBACBACBACB" ++
    "ACBALgdABBACBACBACBACBACBACBACBAFBACBADBACBACBACBACBACBACBACBAbBAw4UBA8gBgBABgBABgBABgBABgBABgBABgBABgBABgBA" ++
    "BgBABgBABgBABgBABgBABgBABgBABgBABgBABgBABgBABgBABgBABgBABgBABgBABgBAmmBoBABoBABoBABoBABoBABoBABoBABoBABoBABo" ++
    "BABoBABoBABoBABoBABoBABoBABoBABoBABoBABoBABoBABoBABoBABoBABoBABoBABoBABoBABoBABoBABoBABoBABoBABoBABoBABoBABo" ++
    "BABoBABoBABoBApEoBABoBABoBABoBABoBABoBABoBABoBABoBABoBABoBABoBABoBABoBABoBABoBABoBABoBABoBABoBABoBABoBABoBAB" ++
    "oBABoBABoBABoBABoBABoBABoBABoBABoBABoBABoBABoBABoBA9EnBABnBABnBABnBABnBABnBABnBABnBABnBABnBABnBACnBABnBABnBA" ++
    "BnBABnBABnBABnBABnBABnBABnBABnBABnBABnBABnBABnBACnBABnBABnBABnBABnBABnBABnBACnBABnBAr3BgCABgCABgCABgCABgCABg" ++
    "CABgCABgCABgCABgCABgCABgCABgCABgCABgCABgCABgCABgCABgCABgCABgCABgCABgCABgCABgCABgCABgCABgCABgCABgCABgCABgCABg" ++
    "CABgCABgCABgCABgCABgCABgCABgCABgCABgCABgCABgCABgCABgCABgCABgCABgCABgCABgCA-EgBABgBABgBABgBABgBABgBABgBABgBAB" ++
    "gBABgBABgBABgBABgBABgBABgBABgBABgBABgBABgBABgBABgBABgBA75CgBABgBABgBABgBABgBABgBABgBABgBABgBABgBABgBABgBABgB" ++
    "ABgBABgBABgBABgBABgBABgBABgBABgBABgBABgBABgBABgBABgBABgBABgBABgBABgBABgBABgBAhsVgBABgBABgBABgBABgBABgBABgBAB" ++
    "gBABgBABgBABgBABgBABgBABgBABgBABgBABgBABgBABgBABgBABgBABgBABgBABgBABgBABgBABgBABgBABgBABgBABgBABgBAhCbABbABb" ++
    "ABbABbABbABbABbABbABbABbABbABbABbABbABbABbABbABbABbABbABbABbABbABbAoyeiBABiBABiBABiBABiBABiBABiBABiBABiBABiB" ++
    "ABiBABiBABiBABiBABiBABiBABiBABiBABiBABiBABiBABiBABiBABiBABiBABiBABiBABiBABiBABiBABiBABiBABiBABiB"

/-- reads the groups off the unpacked numbers; `first` is the first member of the group before -/
def foldGroupsOf : Nat → Nat → List Nat → List (List Nat)
  | 0, _, _ => []
  | fuel + 1, first, size :: step :: rest =>
    let start := first + step
    let steps := rest.take (size + 1)
    let members := steps.foldl (fun acc d => ((acc.headD 0) + d) :: acc) [start]
    members :: foldGroupsOf fuel start (rest.drop (size + 1))
  | _ + 1, _, _ => []

/-- the groups of characters that fold to one another -/
def foldGroups : List (List Nat) :=
  let numbers := CharSet.unpackNumbers foldRow
  foldGroupsOf numbers.length 0 numbers

/-- closes a set under folding -/
def foldCase (s : CharSet) : CharSet :=
  let met := foldGroups.filter fun group => group.any s.contains
  s.union (CharSet.ofSpans (met.flatten.map fun c => ⟨c, c⟩))

end Gleaner.Unicode
