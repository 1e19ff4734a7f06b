/-
The yes-or-no properties of characters, and the sets built from them that text processing asks for most: letters,
white space and the characters of words.
-/
import Gleaner.Unicode.Category

namespace Gleaner.Unicode

/-- the names of each property and the characters that have it, as packed spans -/
def propertyRows : List (List String × String) :=
  [(["asciihexdigit", "ahex"], "wBJHFaF"),
   (["alphabetic", "alpha"], "hCZGZvBAKAEAFWBeBpOELOEHABA2CAdRBBCDBAGABCBABTByCBqEIlFBlBCAGoBnBNBABBBBBAIaEDdKF3BBGO" ++
    "lDBHEHECKCCAQvBNkDYgBJBEAFXCSTYHKFXBGHAIpBKLDGGrCBPBCEONSBHCBCVBGBADDDHCBCBBAIAEBBEMBKAECBFEBCVBGBBBBBBEEEBC" ++
    "BEAHDBARFLCBIBCBVBGBBBEDIBCBBDAPDVDECBHCBCVBGBBBEDHCBCBJBEBBENAQBBFDCBDDBBABBDBDCDLEEDCBCDAGAoBMBCBWBPDHBCBC" ++
    "IBBCBBCDcDBHBCBWBJBEDHBCBCIBFCBDNCMMBCBoBCHBCBCBAFDHEWFBCBRDXBIBACGIFBABHSBN5BFGGAzBBBABEBXBABSBCCEBAGAODgBA" ++
    "_BHBjBESEPBjBjC2BBACEQ_BKDClBBAFACqBBsKBDCGBABDCoBBDCgBBDCGBABDCOB4BBDCiClBPQ1CCFDrTCQBZFqCDKHTLUMTMMBCBBMzB" ++
    "CSOAEAjC4CHqBFlCKeBLEIXdCELrBEZ2BbE-BCTyBAXBLCxBzBBOBHzBpBCDKrBBKO2BWCKjBCKFqBCCpBDBFBBDAF_FThBL1ICFClBCFCHB" ++
    "ABABABeC0BBGBADCBGDDCFEMFCBG0DANAQMlDAEACJBADEGABABABDBKCDFEEARoBtZzB24BkHGDDBMlBBAFAC3BHAQWJGBGBGBGBGBGBGBG" ++
    "BfvBA1OCZIHECEE1CGCB5CBDFqBB9CRfwBPgQ_tGgCs0VjCtBCsIDPKBUuBFHDwDnBICmDCxCUUBgBYzBMjCBAsBFDABCKgBFiBNcDyBBLPA" ++
    "QPKEB2BJNSWDkCBABAYCCPCDLFCFCFJGBGBqBBNG6DVj9KMWEwBkoItLCpDmBGMEFLBMBEBABBBBBrDhBqLS_BC1BoBL0DEBmEkBZGZL4CDF" ++
    "CFCFCCjBLBZBSBBBOCNiB6DlC0BrIcDwBvBfNdFqBFdCjBEHBEqB9ESjBEjBEnBIzBMKBOBGBBBKBOBGBBDzBM2JJVKHYFBpBBIlCFCABrBB" ++
    "BDACWKWJehCSBBKVKZGZmB3BGBgCDBBFHBCBcqBcDcjBHBbb1BKVKSNRuDoC3ByBNyBNnBiBbDAFW6HpBBBDBQFyBCDcKAIVqBRuBUbWJlCr" ++
    "BEK4BJANYXyBRDIiBDAJ_BBDJBKABAjBRBhBCAGD-BGBABDBOBJH4BXDBHCBCVBGBBBEDHCBCBDAGAFGcJBACABlBBJBACABDBBDABAsBhCB" ++
    "CBDUCehCCBBA4F1BCGZFiB-BBADA7B1BCAnCaCNVG5F4BnD_BfHCACHBBBdBBCBCD9CHCtBCFBABBbyBCJRnCFASoCnDH4CgBfIBsBBGBAxB" ++
    "dCVBNpCGBBBrBDABBBCBACBYFBBBkBBBBDBAXrBkIWJQBoBDCvDAvC5cmDuDRjGsyCgDPvhBRFZ68DFmS51GuBx2B4RHeRuCRdSvBQDfUFSw" ++
    "NsBzG_BgBYCYsBqCE4BHQgCBBAMGJ1mHpBfhDyD9vIDBGBBBiJPAdCCAODIrMkoCqDFMDIHJEAh7F0CBmCBBCACBCDBLBABGBgCBDCHBGBbB" ++
    "DBEBADGBzKCYBYBeBYBeBYBeBYBeBYBH05BeGF1GGBQCGBBBEF9BhBAwDsBKGQAhKdSrBkPbkHdCAvGeBVIBgHGBDBBBOBkG7BjCDADA0lBD" ++
    "BaBBBACABJBDBABAGAEABABABCBBBACABABABABABBBACDBGBDBDBABJBQFCBEBQ0TZGZGZ2zD_2pBgB9oECt0FCwpHPtTitC9QivBq6EFpp" ++
    "I"),
   (["bidicontrol", "bidic"], "8wBAxvGBaE3BD"),
   (["bidimirrored", "bidim"], "oBBSABAcABAdABAtBAPA-zDD96BB8sCBKB2BBOBxFAgGDDFDADBDDBDBABAEIFABRFDJBBABHBfCDFAJBCSF" ++
    "BJECBEXCPIDUBHB9hBNqCACDBBBCFDFCDNzMVCFBNIAHFDAEEBBCEEABCCBKFCBMSBDCABACABDFBGCYBLBEDBBCBEqBCHBnBFABADEFCEAD" ++
    "EBAgIAjQDDBBBOBCJrBHrNJCH9xzBFFBiFBSABAcABAdABABBBB371BA5BA5BA5BA5BA"),
   (["caseignorable", "ci"], "nBAGALAjBABAnCAEABAEACB3P_FEBEAJBBA7HGvGAFAxBsBBABBBBBAsBALFKKBAjBAKUQAlDHBJBDhBABAea7" ++
    "CK6BKEACAYXrBCsBAHBFIpB5B3BABAEHEADGKBNAPA6BAEDIAUBaACB5BAEBEBCCDAeBDALB5BAEEBBEAUBWFBA6BACABDIAHBLBeA9BAMAy" ++
    "BADA3BABCFCBDHBLBdA6BACAGAFBUBcB5BBEDIAUBdAoCAHCBA6CACGLIiDACIJABGpCBbABABA3BNBEBBFKBjBJAmDDBFBBCBZBECQDNACB" ++
    "GAPA-CAgTCydCdBeBeBgCBBGIACKDAFAtBEzBAhCBiBA2DCEBJAGC7GBCA6BABGBABACHGJCAnBAItBCLUDwBABEBAFAoBIMBgBDCBBC4BAB" ++
    "BDABC6BHCBgCFyCCBMBGEAGADByB-BNAiBkD9NABCLCNCNCNBMEIBKACACExBEBJBANAQMzBgBr8CBxDC9DAPAgDfvBA1OAkBDDEFA9CF9CC" ++
    "24bAinBFuIAiDDBJBAcDwCBOhBuCAXCmDDDBIADAEAZBFA3EBaRNAmBHZKuBCwBACDCBRAVBiCFCBCBMAIAjBALAzBABCCBFBBAbAOBFBBAk" ++
    "DEJC5DACAEAw5TAzEQ9RPDAMPiBACApFAHAGALAjBABAvBAtBBjCAVChQAiHA1EElgBFBpBBImSCBBFDoBCEAlFB9RDmBAaEBA7JBYA0BFmC" ++
    "KxBD7DA2BOpBACBKCxBDCBCAEAKAyBCkBEBH-BAMB0BIKDCA_CCCABBGACA9EADHVB5BBDAlBGDEmCFNABABAOB1CHCCBAXA0CFBAEBBBuHD" ++
    "GBBBbB1CHCABBqDABACFBAlDABACDBEjIIBBgIBBAEAwEDCBEAgBJoBFCDIAJFCCuBMBBmGABCBApGGBFBAyCVCGBBBB6DFDABBBGBAoCBDA" ++
    "BAhCA5IBLB0BEFABAXA1mFQGOomLLDCguCE7BGJD8PCoBBiPA_BQgCBBBNB8_PDBGBB-kDBBD8yEtBCWgRCJPCGeD0EC79B2BExBIAOAWEBO" ++
    "wqBGBQCGBBBEF9BhBAgFNwLA9BD7PE-HBzHACAHBFAJAwOGtDHv1CEhgjYAe_CgEvH"),
   (["cased"], "hCZGZvBAKAEAFWBeBiGBDEvGCiBHBeEgDAqBDCBCDBAGABCBABTByCBqEIlFBlBJoB34ClBBAFACqBBDgV1CCFikCKFqBCCgC_Fg" ++
    "C1ICFClBCFCHBABABABeC0BBGBADCBGDDCFEMFCBG0DANAQMlDAEACJBADEGABABABDBFEACDFEEARfDBxZzB24BkHGDDBMlBBAFAyoetBSd" ++
    "kElDDDBsCUFBC1ZqBBNGvCg6TGMEpgBZGZllBvCgDjBEjB0DKBOBGBBBKBOBGBBjOACCBpBBIlmByBNyB9CVKV64C_BgrV_BgBYCYspZ0CBm" ++
    "CBBCACBCDBLBABGBgCBDCHBGBbBDBEBADGBzKCYBYBeBYBeBYBeBYBeBYBH05BJBTGFlI9BykCjCs_BZGZGZ"),
   (["changeswhencasefolded", "cwcf"], "hCZ6CAKWBHgBABABABABABABABABABABABABABABABABABABABABABABABABABABABACABABABAB" ++
    "ABABABABBBABABABABABABABABABABABABABABABABABABABABABABBBABABABBBABBBCCDBBBCDBBBBABABBBACABBBCBABBDAHBBBBBBAB" ++
    "ABABABABABABACABABABABABABABABACBBABCBABABABABABABABABABABABABABABABABABABABABABABABABABABABABAHBBBCABDBABAB" ++
    "ABA2HAqBABADAIAGABCBABBBQBIWAMCDBBABABABABABABABABABABABABBCBBABBCyBwBABABABABABABABABABABABABABABABABAJABAB" ++
    "ABABABABABABABABABABABABABABABABABABABABABABABABABBBABABABABABACABABABABABABABABABABABABABABABABABABABABABAB" ++
    "ABABABABABABABABABABABABABABABABABABABABABABABABABAClBwBA44ClBBAFAqZFikCJGqBCCgKABABABABABABABABABABABABABAB" ++
    "ABABABABABABABABABABABABABABABABABABABABABABABABABABABABABABABABABABABABABABABABABABABABABABABABABABABABABAB" ++
    "ABABABABABABAFBCABABABABABABABABABABABABABABABABABABABABABABABABABABABABABABABABABABABABABABABABABABABABABAB" ++
    "ABABAJHIFKHIHIFLABABABAIHQvBCCCFFCCFLDMEFCCFpJADBGAtBPTAyZZw5BvBwBABCCABABABDBACAICBABABABABABABABABABABABAB" ++
    "ABABABABABABABABABABABABABABABABABABABABABABABABABABABABABABABABABABABABAIABAEAtqeABABABABABABABABABABABABAB" ++
    "ABABABABABABABABABATABABABABABABABABABABABABABAnEABABABABABABADABABABABABABABABABABABABABABABABABABABABABABA" ++
    "BABABABABABABABAKABABBBABABABAEABACABADABABABABABABABABABABEBEBABABABABABABABDBABBBABABABABABABABAYA6bvCg6TG" ++
    "MEpgBZlmBnBoEjB8EKBOBGBBq3ByB9EV65CfgsVfgCYnyehB"),
   (["changeswhencasemapped", "cwcm"], "hCZGZ6BAKWBeB_BBzCBbCNCBBAE8CBRGaBBBABBDBBDBECABBCAHACABBDFFAKBmFAqBDCBDCBAG" ++
    "ABCBABTBuBDgBBEBkEIlFBlBKmB44ClBBAFACqBCCgV1CCFikCKFqBCC5FADAQAxD7ECAB1DCFClBCFCHBABABABeC0BBGBADCBGDDCFEMFC" ++
    "BGpJADBGAbARfDBxZzB24BwDBBBBHlDHDDBMlBBAFAyoetBSbmENC9BJODCCEBYBsBYB8aAcvCg6TGMEpgBZGZllBvCgDjBEjB0DKBOBGBBB" ++
    "KBOBGBBj2ByBNyB9CVKV64C_BgrV_BgBYCYsxejC"),
   (["changeswhenlowercased", "cwl"], "hCZlDWBGhBABABABABABABABABABABABABABABABABABABABABABABABABABABABACABABABABABA" ++
    "BABACABABABABABABABABABABABABABABABABABABABABABABABBBABADBBABBBCCDBBBCDBBBBABABBBACABBBCBABBDAHBBBBBBABABABA" ++
    "BABABABACABABABABABABABABACBBABCBABABABABABABABABABABABABABABABABABABABABABABABABABABABABAHBBBCABDBABABABAhJ" ++
    "ABADAIAGABCBABBBQBIjBAIABABABABABABABABABABABAFACABBCyBwBABABABABABABABABABABABABABABABABAJABABABABABABABABA" ++
    "BABABABABABABABABABABABABABABABABABABBBABABABABABACABABABABABABABABABABABABABABABABABABABABABABABABABABABABA" ++
    "BABABABABABABABABABABABABABABABABABABAClBp6ClBBAFAyW1CzkCAGqBCCgKABABABABABABABABABABABABABABABABABABABABABA" ++
    "BABABABABABABABABABABABABABABABABABABABABABABABABABABABABABABABABABABABABABABABABABABABABABABABABABABABABAJA" ++
    "BABABABABABABABABABABABABABABABABABABABABABABABABABABABABABABABABABABABABABABABABABABABABABABABAJHIFKHIHIFLA" ++
    "BABABAIHYHIHIHIELELDMELEpJADBGAtBPTAyZZw5BvBwBABCCABABABDBACAICBABABABABABABABABABABABABABABABABABABABABABAB" ++
    "ABABABABABABABABABABABABABABABABABABABABABABABABABABAIABAEAtqeABABABABABABABABABABABABABABABABABABABABABABAT" ++
    "ABABABABABABABABABABABABABAnEABABABABABABADABABABABABABABABABABABABABABABABABABABABABABABABABABABABABABAKABA" ++
    "BBBABABABAEABACABADABABABABABABABABABABEBEBABABABABABABABDBABBBABABABABABABABAYAr5VZlmBnBoEjB8EKBOBGBBq3ByB9" ++
    "EV65CfgsVfgCYnyehB"),
   (["changeswhentitlecased", "cwt"], "hDZ6BApBXBHBABABABABABABABABABABABABABABABABABABABABABABABABABABABACABABABABA" ++
    "BABABBBABABABABABABABABABABABABABABABABABABABABABABACABABCCABACADAFACADCCACABABACAEACADABACADABAEABBBBBABABA" ++
    "BABABABABABBBABABABABABABABABCBABADABABABABABABABABABABABABABABABABABABABADABABABABABABABABAIACBBAEABABABABF" ++
    "BBBABBDBBDBECABBCAHACABBDFFAKBmFArBABADADCSAbiBBBDCBABABABABABABABABABABABEBACACA0BvBBABABABABABABABABABABAB" ++
    "ABABABABABAJABABABABABABABABABABABABABABABABABABABABABABABABABABACABABABABABABBBABABABABABABABABABABABABABAB" ++
    "ABABABABABABABABABABABABABABABABABABABABABABABABABABABABABABABABABAxBmBwzDFikCIBAuHADAQAyDABABABABABABABABAB" ++
    "ABABABABABABABABABABABABABABABABABABABABABABABABABABABABABABABABABABABABABABABABABABABABABABABABABABABABABAB" ++
    "ABABABABABABABABABABABGFABABABABABABABABABABABABABABABABABABABABABABABABABABABABABABABABABABABABABABABABABAB" ++
    "ABABABABABIIFKHIHIFKHIHINCHIHIHIEBBGADCBBIDCBIHKCBB2KAhBPEAraZm6BvBBADBBABABAGACAKABABABABABABABABABABABABAB" ++
    "ABABABABABABABABABABABABABABABABABABABABABABABABABABABABABABABABABABABABAIABAEAMlBBAFAzoeABABABABABABABABABA" ++
    "BABABABABABABABABABABABABATABABABABABABABABABABABABABAnEABABABABABABADABABABABABABABABABABABABABABABABABABAB" ++
    "ABABABABABABABABABABABAKABACABABABABAEAEABBCABABABABABABABABABALABABABABABABABAEABACABABABABABABABAaA8aAcvCg" ++
    "6TGMEphBZtmBnBoEjB7EKBOBGBBj4ByB9DV65CfgsVf7BYuyehB"),
   (["changeswhenuppercased", "cwu"], "hDZ6BApBXBHBABABABABABABABABABABABABABABABABABABABABABABABABABABABACABABABABA" ++
    "BABABBBABABABABABABABABABABABABABABABABABABABABABABACABABCCABACADAFACADCCACABABACAEACADABACADABAFBBBBBBABABA" ++
    "BABABABABBBABABABABABABABABBBBBADABABABABABABABABABABABABABABABABABABABADABABABABABABABABAIACBBAEABABABABFBB" ++
    "BABBDBBDBECABBCAHACABBDFFAKBmFArBABADADCSAbiBBBDCBABABABABABABABABABABABEBACACA0BvBBABABABABABABABABABABABAB" ++
    "ABABABABAJABABABABABABABABABABABABABABABABABABABABABABABABABABACABABABABABABBBABABABABABABABABABABABABABABAB" ++
    "ABABABABABABABABABABABABABABABABABABABABABABABABABABABABABABABABAxBmBo6CqBCC4XFikCIBAuHADAQAyDABABABABABABAB" ++
    "ABABABABABABABABABABABABABABABABABABABABABABABABABABABABABABABABABABABABABABABABABABABABABABABABABABABABABAB" ++
    "ABABABABABABABABABABABABABGFABABABABABABABABABABABABABABABABABABABABABABABABABABABABABABABABABABABABABABABAB" ++
    "ABABABABABABABIIFKHIHIFKHIHINC0BBBEABADCBBEADDCBIHKCBBEAxKAhBPEAraZm6BvBBADBBABABAGACAKABABABABABABABABABABA" ++
    "BABABABABABABABABABABABABABABABABABABABABABABABABABABABABABABABABABABABABABABAIABAEAMlBBAFAzoeABABABABABABAB" ++
    "ABABABABABABABABABABABABABABABATABABABABABABABABABABABABABAnEABABABABABABADABABABABABABABABABABABABABABABABA" ++
    "BABABABABABABABABABABABABABAKABACABABABABAEAEABBCABABABABABABABABABALABABABABABABABAEABACABABABABABABABAaA8a" ++
    "AcvCg6TGMEphBZtmBnBoEjB7EKBOBGBBj4ByB9DV65CfgsVf7BYuyehB"),
   (["dash"], "tBA8qBAzBAhyDAlgBApgCF9BAnBAPAmMAkgDACAfBEAcA-NATAvDAwszBBlBAKApFAgzDA-JA"),
   (["defaultignorablecodepoint", "di"], "tFAhVAsWAi6CBzyBB1CE7_BEaExBP0nEA7kzBPvHAgFAvCInlvBDvmFHl0rY__D"),
   (["deprecated", "dep"], "pKAppBAjoCABAphCBlmCF5VB2m3bA"),
   (["diacritic", "dia"], "-CABAnCAGAEACB3P-EBHFFRBEAJB9HExGA3BsBBABBBBBAjEHEBmEBEBDCjCa7CK6BKiBB-DHpBJQb9BAQADDcAqC" ++
    "AQAuDAQAuDAQAvBC8BAQAHA3DAuDAQAuDAQAtDBQA8DAvDAMFBArDANErCBbABABAEBiCCBB-BAwDABBoBBEEZGBAKBhWC0dBeA0EKJA7KCk" ++
    "JAUHCAwBOCKDOCLoCAPAmBI2BB6BALBiCBgCFyCYEAGACCyB-BwBjBFLlBK9NABCLCNCNCNBwnDC9JA6PFpDD_CAyrdAMBBAcByCBOhBmDCm" ++
    "DAGBMAlBA3EAbR5BDkBA_CAMAkBA1EChCDzBAkDEJCgEBw5TAhYPuIABAvBAtBBjCA8XA_kBFBpBBI9TCEAlFB7RFmBAaEsMACCmCKxBDgGA" ++
    "pBAoCB4DB-BAsCAJCoDByFBwCBQAYGDE5CCBBNB_CADA7DB7HB-DA2DBzDAtIBiIBEA8EAzCASAxCAlNAiIABBxCAhCAnLBXAsnFO5mLAguC" ++
    "E7BG0RBiRQwCB-_PDBGBBh4HtBCWgRCDFIHCGeDi0D9BiGG3LA9BD-XBgXGtDCBC"),
   (["emoji"], "jBAGAFJvDAEAt8HAMA4GAWA6CFPBvLBMAmFAZKECnGAnHBKAJA6BDBEJACACBCAEACABBCADADBICFABAFLLBCABBBASACBSFBAB" ++
    "BDBFACBEBLBFBCAFBBABBUBFFBDCAEACACFBACABABAGADAGAKBPACAEABAECBALBwBCJAOAOA0LBvOCTBzBAEA6mBAMA5SABAqrvDAqGAgF" ++
    "BMBOACJrCZBBXAUACIVBuFhBCvDCBBCCyCCCBmIB-BLFBXHBCHMACDCAEBNBCAIBJAFCMCICCABAEAGADAG1CwBlCFHCDDJDABBDACJjHLEA" ++
    "7IuBBJB4FwDMDKD4BBAEPCLEJ"),
   (["emojicomponent", "ecomp"], "jBAGAFJz-HA1GArp3BA2-8BZ7PEwtBDszhY_C"),
   (["emojimodifier", "emod"], "7_8DE"),
   (["emojimodifierbase", "ebase"], "9wJA7GAQD3jzDA8BCCACC1DBCKVSDAECBCHABAYApGBEAVAEBuFCDEzCAQCJALA_RACAIHGAJJCC4BA" ++
    "9BBBBBARCBMlHCqBI"),
   (["emojipresentation", "epres"], "64IBtGDDACApQBVByBLrBATANAIBRBFBIAFAVAHBBAEACAHAEBcAjBABAECBA9BCYAOA7aBzBAEAulx" ++
    "DAqGA-FACJrCZBAYAUACEBCVBuFgBMIBlCBVMqBEEMQDADmCBAB6FC-BNDBXSAaBNA2C0CwBlCGADCCDDDLBHIjHLEA7IuBBJB4FwDMDKD4B" ++
    "BAEPCLEJ"),
   (["extendedpictographic", "extpict"], "pFAEAt8HAMA4GAWA6CFPBvLBMAmFAZKECnGAnHBKAJA6BDBEJACACBCAEACABBCADADBICFABA" ++
    "FLLBCABBBASACBSFBABBDBFACBEBLBFBCAFBBABBUBFFBDCAEACACFBACABABAGADAGAKBPACAEABAECBALBwBCJAOAOA0LBvOCTBzBAEA6m" ++
    "BAMA5SABAqrvDAnBDkDLPBPAOBlBJwDBMBOACJT3BbOKAUACIBDJWG7FCvDCBBCCyCCCBDF9HB-BLFBXHBCHMACDCAEBNBCAIBJAFCMCICCA" ++
    "BAEAGADAG1CwBlCFHCQDABFCM6GlBMD4BHKFoBHeBMDCNJmBMuBBJB4F4CHOxEgI9f"),
   (["extender", "ext"], "3FA4QBubA5NA2TApEA5CAwXA_DAjqCA4BAjTAuMAkCAp8EArBEnDB9CC24bA2vBAieAWApEAsDAVB7jVAwgCBruBAb" ++
    "AEAnmBAlJA0DByPCvmBAgaAorTB8kBBBAOBoqcBxlBA0aC"),
   (["graphemebase", "grbase"], "gB-ChBMBxSwDHCFEGBABTB_GHlFBlBCxBCCuBABACACAJaEFRJLABtBVPBkDIAGBCAEfCABdd4CLAOqBJGD" ++
    "XEAJADAHOBYFABKFfQpB5B2BBABDIDBCHJCcBBBHCBCVBGBADDDABBGBCBBANBBCEXFABFEBCVBGBBBBBBECYDBAHJCCBAMABIBCBVBGBBBE" ++
    "DDIABBDAPBELHAIBBHCBCVBGBBBEDACAGBCBPBBCERLABFDCBDDBBABBDBDCDLFABBDCBCDAVUGCBHBCBWBPDADDTCBBCBEJHJBKBCBWBJBE" ++
    "DBCABBXCBBEJBCOKBCBoBCABBFCBCBBECBJEZCBBRDXBIBACGJBGGHJCCMvBBBLHIMlBBBABEBXBABJBBJACEBAJJCDgBXCaBABABNBjBSAF" ++
    "ACExBHBFBMlBsBEAGACBCYCDDPEMBBCFBOBnBBAFAC4LBDCGBABDCoBBDCgBBDCGBABDCOB4BBDCiCFcDZG1CCFC8UD4CHRNSDBJROMBCPzB" ++
    "CAHHBBLIDJGJGKFJG4CHEChBBAFlCKeEDCCEBBFHADpBCELrBEZGKD4BCBD3BBAJABBIFNJGJGN2CvBKDDHBcJLCfEBG3BBACCBANvBIBFOD" ++
    "9BFqBCKLANAHDBFBCCAF_FgC1ICFClBCFCHBABABABeC0BBOBNCFBSCCBIBKFXHwBQBCaBMDhB-BrEE5UWKVz4BC4LDBFsBBAFAC3BHBPWJG" ++
    "BGBGBGBGBGBGBGhB9CiBZB4CM1Ga5BGPB1CEkDFqBB9CB1CJvBBszcD2BJ7KUuBEAKfCvCCFI8GUQBCBDBYCEEJG3BIjCKLYMBlBIYLAMdGv" ++
    "BBBEBCBBMBKEGBYBoBGBCBLCBHBACJCfByBBADBCECABAYQCHLFCFCFJGBGB7BE0DBBBDDJGj9KMWEwBkoItLCpDmBGMEFABXBEBABBBBBpU" ++
    "gBPQJWiBBSBDEEBmEE8ECeDFCFCFCCDGBGNBCLBZBSBBBOCNiB6DFCEsBD3CBMDAvBsBjEcDwBQaEjBJdFlBKdBkBENqB9ECJGjBEjBEnBIz" ++
    "BLLBOBGBBBKBOBGBBDzBM2JJVKHYFBpBBIlCFCABrBBBDACWBnCIIwBSBBFgBDaFamB3BETCuBPDBCBcKIHIH_BgBkBGLJ1BDcCaFZHDMGwC" ++
    "oC3ByBNyBHpBMJGlBIXIBwGeBpBDACBQFIInBnBIVLIWREDmBbUWJAB1BPGEdBBCAMwBEBCBBDOYHJJjBFAJRIiBBCLzBJABHEBBPBTLRBbD" ++
    "BEFBB_BGBABDBOBKGuBBCNJIBBHCBCVBGBBBEDABABDCBCBDAMGcJBACABlBBABBPABBDABCBBnB3BIBDABUBABCevBBBGABBBACACDIJmFu" ++
    "BBBGDCACakByBIBBACDLJGMTqBBABBIBGJGTcaDABBEAJW5FuBJACAkDyCMHCACHBBBXBEBBGDBCJJmCHCpBIDBDbAKnBGBEHJAGBDtBNACI" ++
    "NoCHJ3CADABA4ChBOJGIBlBOABFKcDfZAHACArCGBBBlBVAJJGFBBBkBEBBABAHJGrBEJ2HSCDJOBjBIBDW2CAPxBN6cmDuDBELjGsyCiDNv" ++
    "hBRFZ68DFmS51GdMCDJm2B4RHeBJEwCBJGdHAKvBHOKJBGBUFSwN5BmG6CFYCYsBqCF3BLMgCDOEJ1mHpBfhDyD9vIDBGBBBiJPAdCCAODIr" ++
    "MkoCqDFMDIHJCACAg7D8HDzNGWPQ_CzD8B1HKmBC7BFCWBHdE8BVhCDA6DTMTM2CJYnE0CBmCBBCACBCDBLBABGBgCBDCHBGBbBDBEBADGBz" ++
    "KCjJCxR3BDyBHBNBG0jBeGFlI9ByEsBKGCJEBgKdSrBEJFAwObEJ2GdCKEAgGeBCBBBGCEJBgHGBDBBBOBkGCIwBjCHAEJEBxYjCsC8BiGDB" ++
    "aBBBACABJBDBABAGAEABABABCBBBACABABABABABBBACDBGBDBDBABJBQFCBEBQ0BBuIrBEjDMOCOBOBkBKtF4BcNrBEIHBOF6E4eDQDMD5G" ++
    "GLEAPLE3BIJGnBIdCLEBOInB3KINCMDKD4BBAEPCLEJHyEBmDlgB_2pBgB9oECt0FCwpHPtTitC9QivBq6EFppI"),
   (["graphemeextend", "grext"], "gYvDzIGnIsBBABBBBBAoCKwBUQAlDGCFCBBDjBAea7CK6BIJAYDBIBCBErBC7BIqBXBf3BABAEHEADGKBd" ++
    "A6BABACDIAJAKBaACB5BAEBEBCCDAeBDALB5BAEEBBEAUBWFBA6BABBBDIAHCKBeA7BABAMAJAoBADA3BABCFCBDHBLBdA6BACBBADCBDHBL" ++
    "BcB5BBBACDIAJAKBdAoCAEACCBAIAxCACGMHiDACILGpCBbABABA3BNBEBBFKBjBJAmDDBFBBCBZBECQDNACBGAPA_VCydDcCdBeBgCBBGIA" ++
    "CKJAtBCBA1DBiBA2DCEBJAGC7GBCA6BABGBABACHGJCAwBtBCLUDwBJECmBIMBgBDCF4BABBDABE4BHCB4ECBMBGEAGADBmG_BsQAjGgB-_C" ++
    "CtEAgDfqRFpDB0udDBJgBBwCBwIADAEAZBFA3EBaRNAmBHZKBAsBCwBACDCBCAkBAjCFCBCBMAIAvBAzBABCCBFBBAqBBIAuHACAEAw5TAhX" ++
    "PQPuLB9SAiHA1EEm0BCBBFDoBCEAlFB9RDhCE9JBtCFmCKxBD7DA2BOpBACBKCxBDCBHA9BCkBEBH-BAMB0BIBAIDCA_CCCDGACA9EADHVB5" ++
    "BBBABAMAJAOGDEjCACFBACABCECBAOB1CHCCBAXAxCACFBACABBBBrHACDGBBBbB1CHCABBqDABACHlDABACDBEjIIBB1HAKDEAwEDCBEAgB" ++
    "JoBFCDIAJFCCuBMBBmGABCBApGGBFBAyCVCGBBBB6DFDABBBGBAoCBDABA7KBLB0BEFCXAlnFAGOomLLDCguCE7BG4gBA_BDxCALBrlTBhzE" ++
    "tBCW-QEDFIHCGeD0EC79B2BExBIAOAWEBOwqBGBQCGBBBEkDAgFG3LA9BD8PD-HBzHACAHBFA6OGtDG12lY_CgEvH"),
   (["hexdigit", "hex"], "wBJHFaFp1_BJHFaF"),
   (["idsbinaryoperator", "idsb"], "w_LBCJxPA"),
   (["idstrinaryoperator", "idst"], "y_LB"),
   (["idcontinue", "idc"], "wBJHZEABZvBAKABACAFWBeBpOELOEHABAR0DBBCDBAGEBABTByCBqEBEClFBlBCAGoBIsBBABBBBBAIaEDdKFpCE" ++
    "lDBHCJBSCAQ6BCkDO1BEACACtBSbEKFXBGHqCBgECJBSBHCBCVBGBADDCICBCDIAEBBECLKABACCBFEBCVBGBBBBBBCABEEBCCDAHDBAHPLC" ++
    "BIBCBVBGBBBECJBCBCCAPDCJJGBCBHCBCVBGBBBECICBCCHCEBBECJBAQBBFDCBDDBBABBDBDCDLEEDCBDCAGAOJQMBCBWBPCIBCBDHBBCBB" ++
    "CDCJQDBHBCBWBJBECIBCBDHBFCBDCJBCMMBCByBBCBEFDHECJKFBCBRDXBIBACGDAEFBABHGJCBN5BFOBJnBBBABEBXBABWCEBABGBJCDgBA" ++
    "XBGJLABABAEJBjBETBRBjBJA5BpCGtCClBBAFACqBBsKBDCGBABDCoBBDCgBBDCGBABDCOB4BBDCiCCCJIOPQ1CCFDrTCQBZFqCDKHVJVLTM" ++
    "MBCBBMzCDAEBCJhBCBKG4CHqBFlCKeBLELKnBCELrBEZGKlBbE-BBcCKGJNAINBeCLUsCDJRIMzDM3BIJDwBCKFqBCCQCBmBF1QCFClBCFCH" ++
    "BABABABeC0BBGBADCBGDDCFEMFCBGPBxBBTAcANAQMzBMEADLRAEACJBACFGABABABPCDFEEARoB3zCkHGIMlBBAFAC3BHAPXJGBGBGBGBGB" ++
    "GBGBGBflQCZOBECEE1CCGB-CFqBB9CRfwBPgQ_tGgCs0VjCtBCsIDbUvBEJByDlBICmDCxCU2BEATzBMlCKJGXDABwBCjBMcDgCOKGeB2BJN" ++
    "CJGWDoCYCCPCEKFCFCFJGBGBqBBNG6DBBCJGj9KMWEwBkoItLCpDmBGMEFLBMBEBABBBBBrDhBqLS_BC1BoBLEPQPDBYCgBEBmETJHZEABZK" ++
    "5CDFCFCFCCjBLBZBSBBBOCNiB6DlC0BoEAiEcDwBPAffNdFqBFdCjBEHBEqB9ECJGjBEjBEnBIzBMKBOBGBBBKBOBGBBDzBM2JJVKHYFBpBB" ++
    "IlCFCABrBBBDACWKWJehCSBBKVKZGZmB3BGBgCDBBFHBCBcCCEAgBcDcjBHBdZ1BKVKSNRuDoC3ByBNyBNnBIJGlBDEBW6HpBBBDBQFyBiBK" ++
    "AIgBfVqBUbWJmCfPJ7BHANYHJG0BBJEDIjBCAJkCEDBMBAjBRBkBGD-BGBABDBOBJH6BFJGDBHCBCVBGBBBEBJCBCCCAGAFGCGDELJBACABl" ++
    "BBJBACABDBHNBdqCFJEDelCBAIJmF1BCIXFiBgCDALJmB4BHJGTcaCOEJGG5F6BlDpCVHCACHBBBdBBCIMJmCHCtBCHBBb-BIAIpCDASoCnD" ++
    "H4CgBPJGIBsBBIPJYdCVBNpCGBBBrBDABBBIIJGFBBBkBBBBFHJGrBEJ2HWJQBoBDENK1CAvC5cmDuDRjGsyCgDPvhBQVK68DFmS51G5Bm2B" ++
    "4RHeBJGuCBJGdCEL2BJDMJJUFSwNsBDJmG_BgBYCYsBqCE4BHQgCBBBLGJ1mHpBfhDyD9vIDBGBBBiJPAdCCAODIrMkoCqDFMDIHJDBxiEJm" ++
    "QtBCW-QEDFIHCGeD0EC7N0CBmCBBCACBCDBLBABGBgCBDCHBGBbBDBEBADGBzKCYBYBeBYBeBYBeBYBeBYBHCxBgQ2BExBIAOAWEBOwiBeGF" ++
    "1GGBQCGBBBEF9BhBAwDsBDNCJEAhKeR5B2OpB2GqBlGeBVIBgHGBDBBBOBkGLGpBrCEJmlBDBaBBBACABJBDBABAGAEABABABCBBBACABABA" ++
    "BABABBBACDBGBDBDBABJBQFCBEBQ0pDJmgB_2pBgB9oECt0FCwpHPtTitC9QivBq6EFppImkzVvH"),
   (["idstart", "ids"], "hCZGZvBAKAEAFWBeBpOELOEHABAhEEBBCDBAGABCBABTByCBqEIlFBlBCAGoBnCaEDtBqBjBBBiDBAPBHBKCCAQABdd" ++
    "4CLAYgBJBEAFVEAJADAXYHKFXBGQpB6B1BDASAHJPPEHCBCVBGBADDDAQANBBCOBKAIFEBCVBGBBBBBBfDBATCQIBCBVBGBBBEDASAPBXALH" ++
    "CBCVBGBBBEDAeBBCPARABFDCBDDBBABBDBDCDLWA0BHBCBWBPDAaCBBCBeAEHBCBWBJBEDAeCBBPBRIBCBoBCAQAFCICYFFRDXBIBACG6BvB" ++
    "BBMG6BBBABEBXBABJBBJACEBAVDgBA_BHBjBbEzDqBUAQFEDDADBHCEMMARlBBAFACqBBsKBDCGBABDCoBBDCgBBDCGBABDCOB4BBDCiClBP" ++
    "Q1CCFDrTCQBZFqCDKHRNSOROMBCPzBjBAEAjC4CHoBBAFlCKexBdCELrBEZ2BWJ0ByCA9CuBRH2BdNBKrBajBpBCKjBCKFqBCCpBDBFBBDAF" ++
    "_FgC1ICFClBCFCHBABABABeC0BBGBADCBGDDCFEMFCBG0DANAQMlDAEACJBACFGABABABPCDFEEARoB3zCkHGDDBMlBBAFAC3BHAQWJGBGBG" ++
    "BGBGBGBGBGmRCZIHECEE1CEEB5CBDFqBB9CRfwBPgQ_tGgCs0VjCtBCsIDPKBUuBQeCvCnBICmDCxCUQBCBDBWdzBOxB-BFDABBLbKWZcHuB" ++
    "cAQEBJKEBoBXCBHUWDADxBBADBCECABAYCCKHCMFCFCFJGBGBqBBNGyDdj9KMWEwBkoItLCpDmBGMEFABJBMBEBABBBBBrDhBqLS_BC1BoBL" ++
    "0DEBmEkBZGZL4CDFCFCFCCjBLBZBSBBBOCNiB6DlC0BrIcDwBvBfNdFlBKdCjBEHBEqB9ESjBEjBEnBIzBMKBOBGBBBKBOBGBBDzBM2JJVKH" ++
    "YFBpBBIlCFCABrBBBDACWKWJehCSBBKVKZGZmB3BGBgCAPDBCBcqBcDcjBHBbb1BKVKSNRuDoC3ByBNyBNjBmBbJW6HpBGBQF4BcKAIVqBRu" ++
    "BUbWM0B5BBCANsBgBYajBdACAIiBDAMvBODVABAjBRBYTB_BGBABDBOBJHuBmBHCBCVBGBBBEDASAMEeJBACABlBBAZABAsB0BSDUCevBUBB" ++
    "A4FuBpBDkBvBUA7BqBNAnCalBG5FrB0D_BfHCACHBBBXPABA-CHCmBQABAcAKnBHAVALtBTASoCnGgBfIBkBRAxBdwDGBBBlBVAZFBBBfOAX" ++
    "rBkISPABMBhB8DAvC5cmDuDRjGsyCgDPvhBRFZ68DFmS51Gdi3B4RHeRuCRdSvBQDfUFSwNsBzG_BgBYCYsBqCFAiCMgCBBAOEJ1mHpBfhDy" ++
    "D9vIDBGBBBiJPAdCCAODIrMkoCqDFMDIHJm7F0CBmCBBCACBCDBLBABGBgCBDCHBGBbBDBEBADGBzKCYBYBeBYBeBYBeBYBeBYBH05BeGFlI" ++
    "9ByEsBKGQAhKdSrBkPbkHdCAvGeBCBBBGCEJBgHGBDBBBOBkG7BjCHA0lBDBaBBBACABJBDBABAGAEABABABCBBBACABABABABABBBACDBGB" ++
    "DBDBABJBQFCBEBQkqE_2pBgB9oECt0FCwpHPtTitC9QivBq6EFppI"),
   (["ideographic", "ideo"], "mgMBZIOCle_tGgC_vUgoWtLCpDqodANEJ1mHpBfhDyD97IrMkoT_2pBgB9oECt0FCwpHPtTitC9QivBq6EFppI"),
   (["joincontrol", "joinc"], "sgIB"),
   (["logicalorderexception", "loe"], "gyDE7DEw3CCCA6nkBBCABB"),
   (["lowercase", "lower"], "hDZvBAKAEAkBXBHBABABABABABABABABABABABABABABABABABABABABABABABABABABABBBABABABABABABABB" ++
    "BABABABABABABABABABABABABABABABABABABABABABABACABABCCABACADBEACADCCACABABACABBBACADABACBCCGACACABABABABABABA" ++
    "BABBBABABABABABABABABBCABADABABABABABABABABABABABABABABABABABABABABABABABABABABABABABGCACBBAEABABABABkCCiBHB" ++
    "eEgDArBABADACDSAbiBBBDCBABABABABABABABABABABABEBACACBzBvBBABABABABABABABABABABABABABABABABAJABABABABABABABAB" ++
    "ABABABABABABABABABABABABABABABABABABACABABABABABABBBABABABABABABABABABABABABABABABABABABABABABABABABABABABAB" ++
    "ABABABABABABABABABABABABABABABABABABABAwBoBn6CqBBD4XFikCIBA1D_FhCABABABABABABABABABABABABABABABABABABABABABA" ++
    "BABABABABABABABABABABABABABABABABABABABABABABABABABABABABABABABABABABABABABABABABABABABABABABABABABABABABIBA" ++
    "BABABABABABABABABABABABABABABABABABABABABABABABABABABABABABABABABABABABABABABABABABABABABABABABIIFKHIHIFKHIH" ++
    "INCHIHIHIEBBGADCBBIDCBIHKCBB5DANAQMtDADBDAbAEAEACBIDEAhBPEAraZm6BvBBADBBABABAEABBBHDABABABABABABABABABABABAB" ++
    "ABABABABABABABABABABABABABABABABABABABABABABABABABABABABABABABABABABABABABBHABAEAMlBBAFAzoeABABABABABABABABA" ++
    "BABABABABABABABABABABABABABATABABABABABABABABABABABABABClEABABABABABABCBABABABABABABABABABABABABABABABABABAB" ++
    "ABABABABABABABABABABABABJBABACABABABABAEABACABCBABABABABABABABABABAFAFABABABABABABABAEABACABABABABABABABAVDB" ++
    "ABC1ZqBBNGvCg6TGMEphBZtmBnBoEjB7EKBOBGBBjOACCBpBBIloByB9DV65CfgsVf7BYmqZZaGBRaZaDBABGBKaZaZaZaZaZaZaZaZabcYB" ++
    "FaYBFaYBFaYBFaYBFBA05BJBTGFlI9B0lChB"),
   (["math"], "rBAQCfAdABAtBAEAlBAfA4WCCAaBCCvQCtwGAbCLADANAODVELEhCMEADBEESAEACJBACFGADBCBBCBFDNBAkCXBFBBEBEfBAGBOr" ++
    "IIDUB6CAeaBAYALG9NBMJEFEBCBDEOABACFLHFB5BABAdDJCwK_BgI_PwBUCF8-zBA3ZFBAiFAQCdABAdABAjEAGDhtDBgrwBAvoB0CBmCBB" ++
    "CACBCDBLBABGBgCBDCHBGBbBDBEBADGBzKCjJCxBgwFDBaBBBACABJBDBABAGAEABABABCBBBACABABABABABBBACDBGBDBDBABJBQFCBEBQ" ++
    "0BB-uCI"),
   (["noncharactercodepoint", "nchar"], "wu_BfuQB-__BB-__BB-__BB-__BB-__BB-__BB-__BB-__BB-__BB-__BB-__BB-__BB-__" ++
    "BB-__BB-__BB-__BB"),
   (["patternsyntax", "patsyn"], "hBOKGaDBAaDiBGBABBBABBEAEADAXAfA44HXIOCSBJxJvWgF1TerjBgQ_DhMCEYPAtozBBlIB"),
   (["patternwhitespace", "patws"], "JESAkDAo8HBYB"),
   (["quotationmark", "qmark"], "iBAEAjEAPA86HHZBnwDApODNChxzBD9FAEA6CB"),
   (["radical"], "g0LZB4CM1G"),
   (["regionalindicator", "ri"], "mv8DZ"),
   (["sentenceterminal", "sterm"], "hBAMAQApqBAzEC0FArBC2HA9BABADBlJBk3BB2YAEBlYAmGB9EBtBAFA6JBiLDiFBKBCBdC7FBhCBkdA" ++
    "XBJCvlDCyJANAWBtNA8ndAuIBjHADA-LB2CB_CA4EBzECwEB5HAmxUACB7BADBpFAMAQAhCA03CB9nBEsBD9FB1DD_DChEBGAQB4CBBBsDAq" ++
    "JB1DB1LBFOpDB5HClQABA7HB3CBkNB0VBqCBp5SBlEAhCBLApRBoJAmwTAovHA"),
   (["softdotted", "sd"], "pDBkGA5IAeA0BAUAgKAiDABApoGAzBANADAkEA9EAlNA2GBy5CAl9pDByBByBByBByBByBByBByBByBByBByBByBB" ++
    "yBBmkCAxJBaA"),
   (["terminalpunctuation", "term"], "hBAKABALBDA-ZAIAhQA5BAoCAOABC0FArBKBArHB2BFBHfAlIB0nBBsFAEF3JB1YHlYA8DCnCB9ECD" ++
    "AnBDCB6JBiLDiFBKBBCdC7FE-BBkdAXBJCvlDCyJANAEAKABBDBsNB7ndBtICjHE-LB2CB_CA3ECzEC_DAQB5HAmxUACB5BCBDpFAKABALBD" ++
    "AhCACA6hBAwBAmkBAnGA2JB4EFkCF5CD4dEsBD9FGwDD_DChEBGAQB4CEsDAqJB1DCMBmLDDOpDB5HClQABA7HB3CBEB-MCtBAlUBqCBrpBE" ++
    "5vRBlEAhCCKApRBnJBmwTAnvHD"),
   (["unifiedideograph", "uideo"], "ggN_tGgC_vUuwWBBABBKABABBCC2uhC_2pBgB9oECt0FCwpHPtTitEq6EFppI"),
   (["uppercase", "upper"], "hCZlDWBGhBABABABABABABABABABABABABABABABABABABABABABABABABABABABACABABABABABABABACABABA" ++
    "BABABABABABABABABABABABABABABABABABABABABBBABADBBABBBCCDBBBCDBBBBABABBBACABBBCBABBDAHACACACABABABABABABABACA" ++
    "BABABABABABABABACACABCBABABABABABABABABABABABABABABABABABABABABABABABABABABABABAHBBBCABDBABABABAhJABADAIAGAB" ++
    "CBABBBQBIjBACCDABABABABABABABABABABABAFACABBCyBwBABABABABABABABABABABABABABABABABAJABABABABABABABABABABABABA" ++
    "BABABABABABABABABABABABABABABBBABABABABABACABABABABABABABABABABABABABABABABABABABABABABABABABABABABABABABABA" ++
    "BABABABABABABABABABABABABABABAClBp6ClBBAFAyW1CzkCAGqBCCgKABABABABABABABABABABABABABABABABABABABABABABABABABA" ++
    "BABABABABABABABABABABABABABABABABABABABABABABABABABABABABABABABABABABABABABABABABABABABABABABABABAJABABABABA" ++
    "BABABABABABABABABABABABABABABABABABABABABABABABABABABABABABABABABABABABABABABABABABABABAJHIFKHIHIFLABABABAIH" ++
    "oCDMDMDMELDmIAEADCCCCADEGABABABDCDKBFAaPTAyZZw5BvBwBABCCABABABDBACAICBABABABABABABABABABABABABABABABABABABAB" ++
    "ABABABABABABABABABABABABABABABABABABABABABABABABABABABABABAIABAEAtqeABABABABABABABABABABABABABABABABABABABAB" ++
    "ABABATABABABABABABABABABABABABABAnEABABABABABABADABABABABABABABABABABABABABABABABABABABABABABABABABABABABABA" ++
    "BAKABABBBABABABAEABACABADABABABABABABABABABABEBEBABABABABABABABDBABBBABABABABABABABAYAr5VZlmBnBoEjB8EKBOBGBB" ++
    "q3ByB9EV65CfgsVfgCYnqZZaZaZaABBCACBCDBHaZaBBDCHBGbBBDBEBADGbZaZaZaZaZaZeYhBYhBYhBYhBYhBA1pEhBugCZGZGZ"),
   (["variationselector", "vs"], "rgGCBAwv5BPw3gavH"),
   (["whitespace", "wspace", "space"], "JESAkDAaA_uFA_rCKdBFAvBAg9DA"),
   (["xidcontinue", "xidc"], "wBJHZEABZvBAKABACAFWBeBpOELOEHABAR0DBBDCBAGEBABTByCBqEBEClFBlBCAGoBIsBBABBBBBAIaEDdKFp" ++
    "CElDBHCJBSCAQ6BCkDO1BEACACtBSbEKFXBGHqCBgECJBSBHCBCVBGBADDCICBCDIAEBBECLKABACCBFEBCVBGBBBBBBCABEEBCCDAHDBAHP" ++
    "LCBIBCBVBGBBBECJBCBCCAPDCJJGBCBHCBCVBGBBBECICBCCHCEBBECJBAQBBFDCBDDBBABBDBDCDLEEDCBDCAGAOJQMBCBWBPCIBCBDHBBC" ++
    "BBCDCJQDBHBCBWBJBECIBCBDHBFCBDCJBCMMBCByBBCBEFDHECJKFBCBRDXBIBACGDAEFBABHGJCBN5BFOBJnBBBABEBXBABWCEBABGBJCDg" ++
    "BAXBGJLABABAEJBjBETBRBjBJA5BpCGtCClBBAFACqBBsKBDCGBABDCoBBDCgBBDCGBABDCOB4BBDCiCCCJIOPQ1CCFDrTCQBZFqCDKHVJVL" ++
    "TMMBCBBMzCDAEBCJhBCBKG4CHqBFlCKeBLELKnBCELrBEZGKlBbE-BBcCKGJNAINBeCLUsCDJRIMzDM3BIJDwBCKFqBCCQCBmBF1QCFClBCF" ++
    "CHBABABABeC0BBGBADCBGDDCFEMFCBGPBxBBTAcANAQMzBMEADLRAEACJBACFGABABABPCDFEEARoB3zCkHGIMlBBAFAC3BHAPXJGBGBGBGB" ++
    "GBGBGBGBflQCZOBECEE1CCBCCB-CFqBB9CRfwBPgQ_tGgCs0VjCtBCsIDbUvBEJByDlBICmDCxCU2BEATzBMlCKJGXDABwBCjBMcDgCOKGeB" ++
    "2BJNCJGWDoCYCCPCEKFCFCFJGBGBqBBNG6DBBCJGj9KMWEwBkoItLCpDmBGMEFLBMBEBABBBBBrDhBqEG5GS_BC1BoBJGPQPDBYChBABADAB" ++
    "ABABAB9DTJHZEABZK5CDFCFCFCCjBLBZBSBBBOCNiB6DlC0BoEAiEcDwBPAffNdFqBFdCjBEHBEqB9ECJGjBEjBEnBIzBMKBOBGBBBKBOBGB" ++
    "BDzBM2JJVKHYFBpBBIlCFCABrBBBDACWKWJehCSBBKVKZGZmB3BGBgCDBBFHBCBcCCEAgBcDcjBHBdZ1BKVKSNRuDoC3ByBNyBNnBIJGlBDE" ++
    "BW6HpBBBDBQFyBiBKAIgBfVqBUbWJmCfPJ7BHANYHJG0BBJEDIjBCAJkCEDBMBAjBRBkBGD-BGBABDBOBJH6BFJGDBHCBCVBGBBBEBJCBCCC" ++
    "AGAFGCGDELJBACABlBBJBACABDBHNBdqCFJEDelCBAIJmF1BCIXFiBgCDALJmB4BHJGTcaCOEJGG5F6BlDpCVHCACHBBBdBBCIMJmCHCtBCH" ++
    "BBb-BIAIpCDASoCnDH4CgBPJGIBsBBIPJYdCVBNpCGBBBrBDABBBIIJGFBBBkBBBBFHJGrBEJ2HWJQBoBDENK1CAvC5cmDuDRjGsyCgDPvhB" ++
    "QVK68DFmS51G5Bm2B4RHeBJGuCBJGdCEL2BJDMJJUFSwNsBDJmG_BgBYCYsBqCE4BHQgCBBBLGJ1mHpBfhDyD9vIDBGBBBiJPAdCCAODIrMk" ++
    "oCqDFMDIHJDBxiEJmQtBCW-QEDFIHCGeD0EC7N0CBmCBBCACBCDBLBABGBgCBDCHBGBbBDBEBADGBzKCYBYBeBYBeBYBeBYBeBYBHCxBgQ2B" ++
    "ExBIAOAWEBOwiBeGF1GGBQCGBBBEF9BhBAwDsBDNCJEAhKeR5B2OpB2GqBlGeBVIBgHGBDBBBOBkGLGpBrCEJmlBDBaBBBACABJBDBABAGAE" ++
    "ABABABCBBBACABABABABABBBACDBGBDBDBABJBQFCBEBQ0pDJmgB_2pBgB9oECt0FCwpHPtTitC9QivBq6EFppImkzVvH"),
   (["xidstart", "xids"], "hCZGZvBAKAEAFWBeBpOELOEHABAhEEBBDCBAGABCBABTByCBqEIlFBlBCAGoBnCaEDtBqBjBBBiDBAPBHBKCCAQAB" ++
    "dd4CLAYgBJBEAFVEAJADAXYHKFXBGQpB6B1BDASAHJPPEHCBCVBGBADDDAQANBBCOBKAIFEBCVBGBBBBBBfDBATCQIBCBVBGBBBEDASAPBXA" ++
    "LHCBCVBGBBBEDAeBBCPARABFDCBDDBBABBDBDCDLWA0BHBCBWBPDAaCBBCBeAEHBCBWBJBEDAeCBBPBRIBCBoBCAQAFCICYFFRDXBIBACG6B" ++
    "vBBANG6BBBABEBXBABJBAKACEBAVDgBA_BHBjBbEzDqBUAQFEDDADBHCEMMARlBBAFACqBBsKBDCGBABDCoBBDCgBBDCGBABDCOB4BBDCiCl" ++
    "BPQ1CCFDrTCQBZFqCDKHRNSOROMBCPzBjBAEAjC4CHoBBAFlCKexBdCELrBEZ2BWJ0ByCA9CuBRH2BdNBKrBajBpBCKjBCKFqBCCpBDBFBBD" ++
    "AF_FgC1ICFClBCFCHBABABABeC0BBGBADCBGDDCFEMFCBG0DANAQMlDAEACJBACFGABABABPCDFEEARoB3zCkHGDDBMlBBAFAC3BHAQWJGBG" ++
    "BGBGBGBGBGBGmRCZIHECEE1CGCB5CBDFqBB9CRfwBPgQ_tGgCs0VjCtBCsIDPKBUuBQeCvCnBICmDCxCUQBCBDBWdzBOxB-BFDABBLbKWZcH" ++
    "uBcAQEBJKEBoBXCBHUWDADxBBADBCECABAYCCKHCMFCFCFJGBGBqBBNGyDdj9KMWEwBkoItLCpDmBGMEFABJBMBEBABBBBBrDhBqEG5GS_BC" ++
    "1BoBJ3DABADABABABAB9DkBZGZL3BCeDFCFCFCCjBLBZBSBBBOCNiB6DlC0BrIcDwBvBfNdFlBKdCjBEHBEqB9ESjBEjBEnBIzBMKBOBGBBB" ++
    "KBOBGBBDzBM2JJVKHYFBpBBIlCFCABrBBBDACWKWJehCSBBKVKZGZmB3BGBgCAPDBCBcqBcDcjBHBbb1BKVKSNRuDoC3ByBNyBNjBmBbJW6H" ++
    "pBGBQF4BcKAIVqBRuBUbWM0B5BBCANsBgBYajBdACAIiBDAMvBODVABAjBRBYTB_BGBABDBOBJHuBmBHCBCVBGBBBEDASAMEeJBACABlBBAZ" ++
    "ABAsB0BSDUCevBUBBA4FuBpBDkBvBUA7BqBNAnCalBG5FrB0D_BfHCACHBBBXPABA-CHCmBQABAcAKnBHAVALtBTASoCnGgBfIBkBRAxBdwD" ++
    "GBBBlBVAZFBBBfOAXrBkISPABMBhB8DAvC5cmDuDRjGsyCgDPvhBRFZ68DFmS51Gdi3B4RHeRuCRdSvBQDfUFSwNsBzG_BgBYCYsBqCFAiCM" ++
    "gCBBAOEJ1mHpBfhDyD9vIDBGBBBiJPAdCCAODIrMkoCqDFMDIHJm7F0CBmCBBCACBCDBLBABGBgCBDCHBGBbBDBEBADGBzKCYBYBeBYBeBYB" ++
    "eBYBeBYBH05BeGFlI9ByEsBKGQAhKdSrBkPbkHdCAvGeBCBBBGCEJBgHGBDBBBOBkG7BjCHA0lBDBaBBBACABJBDBABAGAEABABABCBBBACA" ++
    "BABABABABBBACDBGBDBDBABJBQFCBEBQkqE_2pBgB9oECt0FCwpHPtTitC9QivBq6EFppI")]

/-- the characters that have a property -/
def property? (name : String) : Option CharSet :=
  (propertyRows.find? (·.1.contains name)).map fun row => CharSet.unpack row.2

/-- the characters of a property of the table -/
def propertySet (name : String) : CharSet :=
  (property? name).getD CharSet.empty

/-- alphabetic characters -/
def alphabetic : CharSet := propertySet "alphabetic"

/-- decimal digits of all scripts -/
def digits : CharSet := (category? "nd").getD CharSet.empty

/-- numbers of all kinds -/
def numbers : CharSet := (category? "n").getD CharSet.empty

/-- white space -/
def whiteSpace : CharSet := propertySet "whitespace"

/-- the characters of words: letters, marks, digits, connectors and joiners -/
def wordChars : CharSet :=
  CharSet.unionAll (alphabetic :: propertySet "joincontrol" :: digits ::
    ["m", "pc"].filterMap category?)

end Gleaner.Unicode
