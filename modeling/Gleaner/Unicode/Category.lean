/-
The general categories of characters. Every scalar value that is assigned lies in exactly one row of the table; the
larger groups (letters, marks, numbers and so on) and the unassigned rest are unions and complements of rows.

A name is looked up in its normal form: lower case, without blanks, underscores and hyphens.
-/
import Gleaner.Unicode.CharSet

namespace Gleaner.Unicode

/-- the names of each category and its characters, as packed spans -/
def categoryRows : List (List String × String) :=
  [(["lu", "uppercaseletter"], "hCZlDWBGhBABABABABABABABABABABABABABABABABABABABABABABABABABABABACABABABABABABABACAB" ++
    "ABABABABABABABABABABABABABABABABABABABABABABBBABADBBABBBCCDBBBCDBBBBABABBBACABBBCBABBDAHACACACABABABABABABAB" ++
    "ACABABABABABABABABACACABCBABABABABABABABABABABABABABABABABABABABABABABABABABABABABAHBBBCABDBABABABAhJABADAIA" ++
    "GABCBABBBQBIjBACCDABABABABABABABABABABABAFACABBCyBwBABABABABABABABABABABABABABABABABAJABABABABABABABABABABAB" ++
    "ABABABABABABABABABABABABABABABABBBABABABABABACABABABABABABABABABABABABABABABABABABABABABABABABABABABABABABAB" ++
    "ABABABABABABABABABABABABABABABABAClBp6ClBBAFAyW1CzkCAGqBCCgKABABABABABABABABABABABABABABABABABABABABABABABAB" ++
    "ABABABABABABABABABABABABABABABABABABABABABABABABABABABABABABABABABABABABABABABABABABABABABABABABABABAJABABAB" ++
    "ABABABABABABABABABABABABABABABABABABABABABABABABABABABABABABABABABABABABABABABABABABABABABAJHIFKHIHIFLABABAB" ++
    "AIHoCDMDMDMELDmIAEADCCCCADEGABABABDCDKBFA9BA8zCvBwBABCCABABABDBACAICBABABABABABABABABABABABABABABABABABABABA" ++
    "BABABABABABABABABABABABABABABABABABABABABABABABABABABABABAIABAEAtqeABABABABABABABABABABABABABABABABABABABABA" ++
    "BABATABABABABABABABABABABABABABAnEABABABABABABADABABABABABABABABABABABABABABABABABABABABABABABABABABABABABAB" ++
    "AKABABBBABABABAEABACABADABABABABABABABABABABEBEBABABABABABABABDBABBBABABABABABABABAYAr5VZlmBnBoEjB8EKBOBGBBq" ++
    "3ByB9EV65CfgsVfgCYnqZZaZaZaABBCACBCDBHaZaBBDCHBGbBBDBEBADGbZaZaZaZaZaZeYhBYhBYhBYhBYhBA1pEhB"),
   (["ll", "lowercaseletter"], "hDZ6BApBXBHBABABABABABABABABABABABABABABABABABABABABABABABABABABABBBABABABABABABABBB" ++
    "ABABABABABABABABABABABABABABABABABABABABABABACABABCCABACADBEACADCCACABABACABBBACADABACBCCGACACABABABABABABAB" ++
    "ABBBABABABABABABABABBCABADABABABABABABABABABABABABABABABABABABABABABABABABABABABABABGCACBBAEABABABABkCCZhGAB" ++
    "ADADCSAbiBBBDCBABABABABABABABABABABABEBACACBzBvBBABABABABABABABABABABABABABABABABAJABABABABABABABABABABABABA" ++
    "BABABABABABABABABABABABABABACABABABABABABBBABABABABABABABABABABABABABABABABABABABABABABABABABABABABABABABABA" ++
    "BABABABABABABABABABABABABABABAwBoBn6CqBCC4XFikCIBA1DrB_BMBhBmDABABABABABABABABABABABABABABABABABABABABABABAB" ++
    "ABABABABABABABABABABABABABABABABABABABABABABABABABABABABABABABABABABABABABABABABABABABABABABABABABABABIBABAB" ++
    "ABABABABABABABABABABABABABABABABABABABABABABABABABABABABABABABABABABABABABABABABABABABABABABIIFKHIHIFKHIHINC" ++
    "HIHIHIEBBGADCBBIDCBIHKCBByIADBDAbAEAEACBIDEA1BAr1CvBBADBBABABAEABBBFFABABABABABABABABABABABABABABABABABABABA" ++
    "BABABABABABABABABABABABABABABABABABABABABABABABABABABABABABBHABAEAMlBBAFAzoeABABABABABABABABABABABABABABABAB" ++
    "ABABABABABABATABABABABABABABABABABABABABAnEABABABABABABCBABABABABABABABABABABABABABABABABABABABABABABABABABA" ++
    "BABABABABABHBABACABABABABAEABACABCBABABABABABABABABABAFAFABABABABABABABAEABACABABABABABABABAaADA1ZqBFIHvCg6T" ++
    "GMEphBZtmBnBoEjB7EKBOBGBBj4ByB9DV65CfgsVf7BYmqZZaGBRaZaDBABGBKaZaZaZaZaZaZaZaZabcYBFaYBFaYBFaYBFaYBFBA05BJBT" ++
    "GF3vChB"),
   (["lt", "titlecaseletter"], "lOACACAmBA1sHHIHIHMAPAvBA"),
   (["lm", "modifierletter"], "wVRELOEHABAlEAFA-OAmHAkFBtIBEAfAJADAgFAnFA0mBA_DA1RA62BArDAjTAwOFuF-BNAiBkBxVANAQM_-C" ++
    "BxHA_FA1OArBEFAhDB9CC24bAinBFuIAyDAcB5DIwCAXAoDDDB1OAWApEAsDAVBnDDJAmgVAtBBg_BFBpBBIzsBAgBA1KAz4DAmrTD8PCoBB" ++
    "mRMgCBBAOB8_PDBGBBxhM9BpGGtdAzQArSA"),
   (["lo", "otherletter"], "qFAPAgIAEDwGB6ZaEDtBfBJjBBBiDBAYBKCCAQABdd4CLAYgBVVqBYHKFXBGQoB7B1BDASAHJQOEHCBCVBGBADDD" ++
    "AQANBBCOBKAIFEBCVBGBBBBBBfDBATCQIBCBVBGBBBEDASAPBXALHCBCVBGBBBEDAeBBCPARABFDCBDDBBABBDBDCDLWA0BHBCBWBPDAaCBB" ++
    "CBeAEHBCBWBJBEDAeCBBPBRIBCBoBCAQAFCICYFFRDXBIBACG6BvBBBMF7BBBABEBXBABJBBJACEXDgBA_BHBjBbEzDqBUAQFEDDADBHCEMM" ++
    "AxDoKBDCGBABDCoBBDCgBBDCGBABDCOB4BBDCiClBPxDrTCQBZFqCGHHRNSOROMBCPzBoBAjCiBB0BHEChBBAFlCKexBdCELrBEZ2BWJ0BwF" ++
    "uBRH2BdNBKrBajBpBCKdxDDBFBBDA6hBD3_C3BYWJGBGBGBGBGBGBGBGnRA1BAE1CIAB5CEAFqBB9CRfwBPgQ_tGgC0wUB2jBjCnBIrIEPKB" ++
    "iCAxBlCpFAnDADGBCBDBWdzBOxB-BFDABBLbKWZcHuBtBECIKEBoBXCBHUPBFDADxBBADBCECABAYBDKHAOFCFCFJGBGxEiBdj9KMWEwBkoI" ++
    "tLCpDjCABJBMBEBABBBBBrDhBqLS_BC1BoBL0DEBmEpDJBsBCeDFCFCFCCjBLBZBSBBBOCNiB6DlMcDwBvBfNTBHGlBKdCjBEHgEtCiDnBIz" ++
    "B8CzBM2JJVKH4EFCABrBBBDACWKWJehCSBBKVKZGZmB3BGBgCAPDBCBcqBcDcjBHBbb1BKVKSNRuDoC3FjBmBDBAwJpBGBQCBB4BcKAIVqBR" ++
    "uBUbWM0B5BBCANsBgBYajBdACAIiBDAMvBODVABAjBRBYTB_BGBABDBOBJHuBmBHCBCVBGBBBEDASAMEeJBACABlBBAZABAsB0BSDUCevBUB" ++
    "BA4FuBpBDkBvBUA7BqBNAnCalBG5FrBzGHCACHBBBXPABA-CHCmBQABAcAKnBHAVALtBTASoCnGgBfIBkBRAxBdwDGBBBlBVAZFBBBfOAXoB" ++
    "BBkISPABMBhB8DAvC5cmHjGsyCgDPvhBRFZ68DFmS51Gdi3B4RHeRuCRdSvBzBUFSzNnB1MqCFAvF1mHpBfhDyDtwIiJPAdCCAODIrMkoCqD" ++
    "FMDIHJwzIA1PsBhBAhKdSrBkPalHdCAvGeBCBBBGCEJAhHGBDBBBOBkG7pBDBaBBBACABJBDBABAGAEABABABCBBBACABABABABABBBACDBG" ++
    "BDBDBABJBQFCBEBQkqE_2pBgB9oECt0FCwpHPtTitC9QivBq6EFppI"),
   (["mn", "nonspacingmark"], "gYvDzIEpIsBBABBBBBAoCKwBUQAlDGCFCBBDjBAea7CK6BIJAYDBIBCBErBC7BIqBXBf3BABAEHEADGKBdA6B" ++
    "AEDIAUBaACB5BAEBEBCCDAeBDALB5BAEEBBEAUBWFBA6BACABDIAHBLBeA9BAMAyBADA3BABCFCBDHBLBdA6BACAGAFBUBcB5BBEDIAUBdAo" ++
    "CAHCBA6CACGMHiDACILGpCBbABABA3BNBEBBFKBjBJAmDDBFBBCBZBECQDNACBGAPA_VCydCdBeBeBgCBBGIACKJAtBCBA1DBiBA2DCEBJAG" ++
    "C7GBCA6BABGBABACHGJCAwBNBeCLUDwBABEBAFAoBIMBgBDCBBC4BABBDABC6BHCB4ECBMBGEAGADBmG_BwWMEADL-_CCtEAgDfqRDrDB0ud" ++
    "AEJgBBwCBwIADAEAZBFA3EBaRNAmBHZKuBCwBACDCBnBAjCFCBCBMAIAvBAzBABCCBFBBAqBBIAuHACAEAw5TAhXPQPteAiHA1EEm0BCBBFD" ++
    "oBCEAlFB9RDhCE9JBtCFmCKxBD7DA2BOpBACBKCxBDCBHA9BCkBEBH-BAMB0BIKDCA_CCCABBGACA9EADHVB5BBDAlBGDEmCFNABABAOB1CH" ++
    "CCBAXA0CFBAEBBBuHDGBBBbB1CHCABBqDABACFBAlDABACDBEjIIBBgIBBAEAwEDCBEAgBJoBFCDIAJFCCuBMBBmGABCBApGGBFBAyCVCGBB" ++
    "BB6DFDABBBGBAoCBDABA7KBLB0BEFABAXAlnFAGOomLLDCguCE7BG4gBA_BDxCA4lTBhzEtBCWgRCRHCGeD0EC79B2BExBIAOAWEBOwqBGBQ" ++
    "CGBBBEkDAgFG3LA9BD8PD-HBzHACAHBFA6OGtDG19lYvH"),
   (["mc", "spacingmark"], "joCA3BACCIDBByBB6BCGBCBKArBA6BCiCA6BCIABB1BB6BABAGBCBKAmDBBBDCBCKApBC9BD9BB6BABECBBBJBcA" ++
    "OB6BCFCBCKAqBBrCCGHSBqKB_BArFBEAGACBZBKCCGVBCFCAKC4zBAeAhEAHHBB6KDCCEBBFgHB6BABAJABBIFxEAwBAFABEBB9BAeAEBCA8" ++
    "BACCBADBwBHIBrFAVA25EBz_dBCA4CByBPuEBvBAwBBEBCCuDBCBYAtBABAtDACBFAtHBBBBBBAzgZABA_DAtBCEBzDAYB7BAwBCJBNA9CCD" ++
    "BBAqFCfB6BBBDCBCCJAKB0CCHACABDBBBAlDCIBDAqDCGABDCAtHCGDCAxDCIBBAtDABBGAnDABBEAlICJA3HFBBEACABAuECIDEA0CAdB-B" ++
    "ApGADABAnGAOAqDAHACA1GEEBBA-KBMAwBBIBBAovQCkxD2BoDBzrYBGF"),
   (["me", "enclosingmark"], "okBB0xFA-wBDBCrshBC"),
   (["nd", "decimalnumber", "digit"], "wBJmxBJmEJmGJ8MJ2DJ2DJ2DJ2DJ2DJ2DJ2DJ2DJ2DJgDJ2DJmCJ2IJmCJm6BJmBJsJJgEJmFJGJ2" ++
    "FJ2CJmEJGJmuiBJmVJmBJmGJWJ2CJ2MJ24UJmsBJmkCJGJ8YJgEJ8BJwEJ2IJ2KJ2DJ2LJmDJGTsCJmNJmDJ2UJ2CJ2HJmCJ2BJmLJ2uQJmp" ++
    "CJ2CJmEJ2QJ27XJ02CxBgqCJmNJ2PJ3HJ1aJ20EJ"),
   (["nl", "letternumber"], "u3FCvzCiBCD-zDAZIOCr1dJwyW0BsOAIAmEEqhIuDl8SC"),
   (["no", "othernumber"], "yFBFACC1pCF4LF4DClEG5GGRIxNJ1hBTzjBJgPA10BADFGJmGPpBA2W7BuCV2TdprBA0kBDqEJeHBOgBJnBOwrdF" ++
    "xmWsBhCDRB1KakBD0pBHZGnBIrCEWFgFBCPCtBgCI0BBeCrCEoDHYHpBGqKFgLe-EJqBDwDGmET7LTlqBBuNInbSzaUm8SG-YWphZTMTsDYu" ++
    "qFIhd6BBCBDsCsBBOieM"),
   (["pc", "connectorpunctuation"], "_CA_-HBTA-u3BBYCvHA"),
   (["pd", "dashpunctuation"], "tBA8qBAzBAhyDAlgBApgCFhwDACAfBEAcA-NATAvDAwszBBlBAKApFAgzDA-JA"),
   (["ps", "openpunctuation"], "oBAyBAfA-1DABA-6BA-rCADAmBA3BAPA6TABAeA-hBABABABABABABAwCAgBABABABABA0MABABABABABABA" ++
    "BABABABAgCABAhBAlhBABABABAZASABABABAsNABABABABADABABABACAhpzBA3GAdABABABABABABABADARABABAqFAyBAfADACA"),
   (["pe", "closepunctuation"], "pBAzBAfA91DABA-6BAptCA3BAPA6TABAeA-hBABABABABABABAwCAgBABABABABA0MABABABABABABABABA" ++
    "BABAgCABAhBAlhBABABABAsBABABABAsNABABABABADABABABACB-ozBA5GAdABABABABABABABADARABABAqFAzBAfACACA"),
   (["pi", "initialpunctuation"], "rFAs7HACBCAZAouDABAEACAPADA"),
   (["pf", "finalpunctuation"], "7FA96HADAcAouDABAEACAPADA"),
   (["po", "otherpunctuation"], "hBCBCCABABBKBDBbAkCAFAOBHA-VAIAyOFpBA2BACACAsBBUBBBNABCqCDmDArBNpHC2BOfAlIBKAsEA4DA" ++
    "5DAmMAMAvLA6CAKBoFOBAwDAqCEEBvDFrFAkTIlYA8DCnCB9ECBClBFBD5JB4GBgEGBFgFBKGcC8DD7BE-BBgCHLAiaBIHIICDCCDKBABJ6k" ++
    "DDBBwDAvEBECCACIBBBACBKEBJCDBABMCCsNC5BA9FAigdBtICjDAKAzDF8LD2CBoBCBAxBBvBAhDMQB8DD-DBQB5HAkxUGCAWAUBCDDCBDH" ++
    "CGABB1ECBCCABABBKBDBbAkBACB6MC8UAwBA-MAnXAnGAfAwIImBAwDGiCG5CDzZAkEEsBD9FGtDBBD-DDwBBvCDEANABC4CFrDAqJBBByDE" ++
    "KBBAoDA6HWpDCcMsCAiEC8HAoIC7EA8CHzCCBE9CJ3GA_CEqBBlUBqCMvFAwjBE87CB7zOBlEAhCEIAoRCnJDnKA8lTAnvHEz7CA-aB"),
   (["sm", "mathsymbol"], "rBAQC9BABAtBAEAlBAfA-XAvQC7xGANAnBCNCrEAnBEGAkCEFBEACACAHAfBCABAfrIgBB6CAeYoBF1OAJA2BHvDA" ++
    "wKECeKPgIiEW-BEfChIwBUCF8-zBA4ZABCkFAQC9BABAjEAGDhtDBgrwBAw-BAZAfAZAfAZAfAZAfAZAs5FB-uCI"),
   (["sc", "currencysymbol"], "kBA9DDpnBA7DAyPByPBHA1HAnIAlSA7sCAkmChB27hBAjuVAsDA6EA7GBDB2_HD-4wBAwtCA"),
   (["sk", "modifiersymbol"], "-CABAnCAGAEADApQDMNFGBABQ1DAOBioBA05FABCLCNCNCNB8kEBjzdWJBnDBweAOBmiUQ7bABAiFA3g9BE"),
   (["so", "othersymbol"], "mFACAEABAxeAqIB_DBuGAKATB3HAjQA1LAiEFBAkEAvGApBAnMCPABCCFUABABAlEHBFBBFDlGBwXJzWAyWA9EhB" ++
    "hLJJIjsBBBDBBKABBGFBABABAEALBOABBBA6BBJECDBBBBBGBeCBBABesIHETCGCwCBdZnBGnCWKxCtCW2FBIB1BIuDB3HsBrBgC_HgQvBVB" ++
    "GmBCpElHFlLBuBZB4CM1GaPEANBMAVBGBwKBEJgBlBJAQeLdIAPfKmBP_JguG_Bw0V2BhbDKBBA9RCpqUPtLPgCB2BHtBCkPADAEBNB5JI5B" ++
    "QCCBMDAvBsB6zBBvSAogBHmjCA1kCHEQq6SDFA2qUAj7DvHKCDzNGWPPgDzD8B1HKmBC7BFCWBHdE8BVhCDA6F2CplB_P3BDyBHBNBBo2BA8" ++
    "6CAhEAxWrBEjDMOCOBOBkBXgF4BcNrBEIHBOF6E6HF4WDQDMD5GGLEAPLE3BIJGnBIdCLEB-B3KINCMDKD4BBAEPCLEJHyEB7CKA"),
   (["zs", "spaceseparator"], "gBA_DA_uFA_rCKkBAvBAg9DA"),
   (["zl", "lineseparator"], "ohIA"),
   (["zp", "paragraphseparator"], "phIA"),
   (["cc", "control", "cntrl"], "Af_CgB"),
   (["cf", "format"], "tFAyqBFWAgGAxBAgMBwCAr5DA8_BEaExBEBJv03BA5HChmEAPAi7IPgjiBDvmFHm0rYAe_C"),
   (["co", "privateuse"], "gg4B_nGg4hc9__BC9__B")]

/-- the groups of categories that have names of their own -/
def categoryGroups : List (List String × List String) :=
  [(["l", "letter"], ["lu", "ll", "lt", "lm", "lo"]),
   (["lc", "casedletter"], ["lu", "ll", "lt"]),
   (["m", "mark", "combiningmark"], ["mn", "mc", "me"]),
   (["n", "number"], ["nd", "nl", "no"]),
   (["p", "punctuation", "punct"], ["pc", "pd", "ps", "pe", "pi", "pf", "po"]),
   (["s", "symbol"], ["sm", "sc", "sk", "so"]),
   (["z", "separator"], ["zs", "zl", "zp"])]

/-- a single category -/
def categoryRow? (name : String) : Option CharSet :=
  (categoryRows.find? (·.1.contains name)).map fun row => CharSet.unpack row.2

/-- everything that has a category -/
def assigned : CharSet :=
  CharSet.unionAll (categoryRows.map fun row => CharSet.unpack row.2)

/-- the characters of a category or group of categories -/
def category? (name : String) : Option CharSet :=
  if name == "any" then some CharSet.all
  else if name == "ascii" then some (CharSet.ofSpans [⟨0, 0x7F⟩])
  else if name == "assigned" then some assigned
  else if name == "cn" || name == "unassigned" then some assigned.compl
  else if name == "c" || name == "other" then
    some (CharSet.unionAll (assigned.compl :: ["cc", "cf", "co"].filterMap categoryRow?))
  else match categoryGroups.find? (·.1.contains name) with
    | some group => some (CharSet.unionAll (group.2.filterMap categoryRow?))
    | none => categoryRow? name

end Gleaner.Unicode
