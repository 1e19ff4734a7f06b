/-
The scripts of characters, and the wider sets of characters that are used with a script. A script without a row of
its own in the second table is used with exactly its own characters.
-/
import Gleaner.Unicode.CharSet

namespace Gleaner.Unicode

/-- the names of each script and its characters, as packed spans -/
def scriptRows : List (List String × String) :=
  [(["adlm", "adlam"], "go6DrCEJEB"),
   (["aghb", "caucasianalbanian"], "wphCzBLA"),
   (["ahom", "ahom"], "g4lCaCOEW"),
   (["arab", "arabic"], "gwBEBFBNBCBfBJLZBrDBhBwCvBwHhBFqCBcwy8BtPCvEgBPwDEBmEj7DejCFIIhBFg43BDBaBBBACABJBDBABAGAEAB" ++
    "ABABCBBBACABABABABABBBACDBGBDBDBABJBQFCBEBQ0BB"),
   (["armi", "imperialaramaic"], "giiCVBI"),
   (["armn", "armenian"], "xpBlBCxBCCjs9BE"),
   (["avst", "avestan"], "g4iC1BDG"),
   (["bali", "balinese"], "g4GsCBxB"),
   (["bamu", "bamum"], "g1pB3CoowB4R"),
   (["bass", "bassavah"], "w26CdCF"),
   (["batk", "batak"], "g-GzBID"),
   (["beng", "bengali"], "gsCDBHCBCVBGBADDCICBCDIAEBBECY"),
   (["bhks", "bhaiksuki"], "ggnCIBsBBNKc"),
   (["bopo", "bopomofo"], "qXB5wLqBwDf"),
   (["brah", "brahmi"], "ggkCtCEjBJA"),
   (["brai", "braille"], "ggK_H"),
   (["bugi", "buginese"], "gwGbCB"),
   (["buhd", "buhid"], "g6FT"),
   (["cakm", "chakma"], "gokC0BBR"),
   (["cans", "canadianaboriginal"], "ggF_TwRlC6tgCP"),
   (["cari", "carian"], "g1gCwB"),
   (["cham", "cham"], "gwqB2BJNCJCD"),
   (["cher", "cherokee"], "g9E1CCFy7lBvC"),
   (["chrs", "chorasmian"], "w9jCb"),
   (["copt", "coptic", "qaac"], "ifNwkKzDFG"),
   (["cpmn", "cyprominoan"], "w8rCiD"),
   (["cprt", "cypriot"], "ggiCFCABrBBBDACA"),
   (["cyrl", "cyrillic"], "ggBkECoFw6FKgFAsCAnjEfgie_Cu8VBgw4B9BhBA"),
   (["deva", "devanagari"], "goCwCEOCZg7nBfgwcJ"),
   (["diak", "divesakuru"], "gomCGCACHBBBdBBCLJJ"),
   (["dogr", "dogra"], "ggmC7B"),
   (["dsrt", "deseret"], "gghCvC"),
   (["dupl", "duployan"], "ggvDqDFMDIHJCD"),
   (["egyp", "egyptianhieroglyphs"], "ggsC1iBK68D"),
   (["elba", "elbasan"], "gohCnB"),
   (["elym", "elymaic"], "g_jCW"),
   (["ethi", "ethiopic"], "gwEoCBDCGBABDCoBBDCgBBDCGBABDCOB4BBDCiCCfDZmvGWJGBGBGBGBGBGBGBGipfFCFCFJGBGxlvCGBDBBBO"),
   (["geor", "georgian"], "glElBBAFACqBBDw8CqBCCgiElBBAFA"),
   (["glag", "glagolitic"], "ggL_Cg9sDGBQCGBBBE"),
   (["gong", "gunjalagondi"], "grnCFBBBkBBBBFHJ"),
   (["gonm", "masaramgondi"], "gonCGBBBrBDABBBIIJ"),
   (["goth", "gothic"], "w5gCa"),
   (["gran", "grantha"], "g4kCDBHCBCVBGBBBECICBCCCAGAFGCGDE"),
   (["grek", "greek"], "wbDBCCDBAEABABCBABTB-BOPmpGEyBEEE0CAgKVCFClBCFCHBABABABeC0BBOBNCFBSCCBInJA-xiBA6uVuCRA_i0BlC"),
   (["gujr", "gujarati"], "h0CCBIBCBVBGBBBECJBCBCCAPDCLHG"),
   (["guru", "gurmukhi"], "hwCCBFEBCVBGBBBBBBCABEEBCCDAHDBAHQ"),
   (["hang", "hangul"], "goE_HuxHBhI9CxDehCeh3dcjUj9KMWEwBk9JeDFCFCFCC"),
   (["hani", "han"], "g0LZB4CM1GvBABAZIODke_tGgC_vUgoWtLCpDoodBMGpgkB_2pBgB9oECt0FCwpHPtTitC9QivBq6EFppI"),
   (["hano", "hanunoo"], "g5FU"),
   (["hatr", "hatran"], "gniCSBBFE"),
   (["hebr", "hebrew"], "xsB2BIaEFop9BZBEBABBBBBJ"),
   (["hira", "hiragana"], "hiM1CGCh7_C-ISAdCtlQA"),
   (["hluw", "anatolianhieroglyphs"], "ggxCmS"),
   (["hmng", "pahawhhmong"], "g46ClCKJBGBUFS"),
   (["hmnp", "nyiakengpuachuehmong"], "go4DsBDNCJEB"),
   (["hung", "oldhungarian"], "gkjCyBNyBHF"),
   (["ital", "olditalic"], "g4gCjBJC"),
   (["java", "javanese"], "gsqBtCCJEB"),
   (["kali", "kayahli"], "goqBtBBA"),
   (["kana", "katakana"], "hlM5CCCwHPwGuBB3CugzBJBsByisBDBGBBBA_ICyBAOD"),
   (["kawi", "kawi"], "g4nCQBoBDc"),
   (["khar", "kharoshthi"], "gwiCDBBFHBCBcCCEJHI"),
   (["khmr", "khmer"], "g8F9CCJGJmPf"),
   (["khoj", "khojki"], "gwkCRBuB"),
   (["kits", "khitansmallscript"], "k_7CA74G1OpBA"),
   (["knda", "kannada"], "gkDMBCBWBJBECIBCBDHBFCBDCJBC"),
   (["kthi", "kaithi"], "gkkCiCKA"),
   (["lana", "taitham"], "gxG-BBcCKGJGN"),
   (["laoo", "lao"], "h0DBBABEBXBABWCEBABGBJCD"),
   (["latn", "latin"], "hCZGZvBAPAFWBeBgOnBE7wGlBGwBFDFMBlChC_HxLANAQMtEBGAbARoB32Cfi1elDDxCUOwZqBBIBD28TG6gBZGZlhCF" ++
    "BpBBIl61BeGF"),
   (["lepc", "lepcha"], "ggH3BDODC"),
   (["limb", "limbu"], "goGeBLELEADL"),
   (["lina", "lineara"], "gwhC2JJVKH"),
   (["linb", "linearb"], "gggCLBZBSBBBOCNiB6D"),
   (["lisu", "lisu"], "wmpBvBw1eA"),
   (["lyci", "lycian"], "g0gCc"),
   (["lydi", "lydian"], "gpiCZFA"),
   (["mahj", "mahajani"], "wqkCmB"),
   (["maka", "makasar"], "g3nCY"),
   (["mand", "mandaic"], "giCbCA"),
   (["mani", "manichaean"], "g2iCmBEL"),
   (["marc", "marchen"], "wjnCfCVBN"),
   (["medf", "medefaidrin"], "gy7C6C"),
   (["mend", "mendekikakui"], "gg6DkGCP"),
   (["merc", "meroiticcursive"], "gtiCXETCtB"),
   (["mero", "meroitichieroglyphs"], "gsiCf"),
   (["mlym", "malayalam"], "goDMBCByBBCBFEPCZ"),
   (["modi", "modi"], "gwlCkCLJ"),
   (["mong", "mongolian"], "ggGBCABTG4CHqB1t_BM"),
   (["mroo", "mro"], "gy6CeBJEB"),
   (["mtei", "meeteimayek"], "g3qBWpGtBCJ"),
   (["mult", "multani"], "g0kCGBABDBOBK"),
   (["mymr", "myanmar"], "ggE_EgqmBehDfwibT"),
   (["nagm", "nagmundari"], "wm5DpB"),
   (["nand", "nandinagari"], "gtmCHCtBCK"),
   (["narb", "oldnortharabian"], "g0iCf"),
   (["nbat", "nabataean"], "gkiCeII"),
   (["newa", "newa"], "gglC7CBE"),
   (["nkoo", "nko"], "g-B6BCC"),
   (["nshu", "nushu"], "h_7CAusQrM"),
   (["ogam", "ogham"], "g0Fc"),
   (["olck", "olchiki"], "wiHvB"),
   (["orkh", "oldturkic"], "ggjCoC"),
   (["orya", "oriya"], "h4CCBHCBCVBGBBBECICBCCHCEBBECR"),
   (["osge", "osage"], "wlhCjBEjB"),
   (["osma", "osmanya"], "gkhCdCJ"),
   (["ougr", "olduyghur"], "w7jCZ"),
   (["palm", "palmyrene"], "gjiCf"),
   (["pauc", "paucinhau"], "g2mC4B"),
   (["perm", "oldpermic"], "w6gCqB"),
   (["phag", "phagspa"], "giqB3B"),
   (["phli", "inscriptionalpahlavi"], "g7iCSFH"),
   (["phlp", "psalterpahlavi"], "g8iCRHDMG"),
   (["phnx", "phoenician"], "goiCbDA"),
   (["plrd", "miao"], "g47CqCE4BHQ"),
   (["prti", "inscriptionalparthian"], "g6iCVCH"),
   (["rjng", "rejang"], "wpqBjBLA"),
   (["rohg", "hanifirohingya"], "gojCnBIJ"),
   (["runr", "runic"], "g1FqCDK"),
   (["samr", "samaritan"], "ggCtBCO"),
   (["sarb", "oldsoutharabian"], "gziCf"),
   (["saur", "saurashtra"], "gkqBlCIL"),
   (["sgnw", "signwriting"], "gg2DrUPEBO"),
   (["shaw", "shavian"], "wihCvB"),
   (["shrd", "sharada"], "gskC_CgsCH"),
   (["sidd", "siddham"], "gslC1BClB"),
   (["sind", "khudawadi"], "w1kC6BFJ"),
   (["sinh", "sinhala"], "hsDCBRDXBIBACGDAEFBABHGJCCs_gCT"),
   (["sogd", "sogdian"], "w5jCpB"),
   (["sogo", "oldsogdian"], "g4jCnB"),
   (["sora", "sorasompeng"], "wmkCYHJ"),
   (["soyo", "soyombo"], "wymCyC"),
   (["sund", "sundanese"], "g8G_BgIH"),
   (["sylo", "sylotinagri"], "ggqBsB"),
   (["syrc", "syriac"], "g4BNB7BCCwIK"),
   (["tagb", "tagbanwa"], "g7FMBCBB"),
   (["takr", "takri"], "g0lC5BGJ"),
   (["tale", "taile"], "wqGdCE"),
   (["talu", "newtailue"], "gsGrBEZGKDB"),
   (["taml", "tamil"], "i8CBBFDCBDDBBABBDBDCDLEEDCBDCAGAOUl-kCxBNA"),
   (["tang", "tangut"], "g_7CAf_3GgQehDyD"),
   (["tavt", "taiviet"], "g0qBiCYE"),
   (["telu", "telugu"], "ggDMBCBWBPCIBCBDHBBCBBCDCJHI"),
   (["tfng", "tifinagh"], "wpL3BHBOA"),
   (["tglg", "tagalog"], "g4FVJA"),
   (["thaa", "thaana"], "g8BxB"),
   (["thai", "thai"], "hwD5BFb"),
   (["tibt", "tibetan"], "g4DnCBjBEmBBjBBOBGEB"),
   (["tirh", "tirhuta"], "gklCnCIJ"),
   (["tnsa", "tangsa"], "wz6CuCBJ"),
   (["toto", "toto"], "w04De"),
   (["ugar", "ugaritic"], "g8gCdBA"),
   (["vaii", "vai"], "gopBrJ"),
   (["vith", "vithkuqi"], "wrhCKBOBGBBBKBOBGBB"),
   (["wara", "warangciti"], "glmCyCMA"),
   (["wcho", "wancho"], "g24D5BFA"),
   (["xpeo", "oldpersian"], "g9gCjBEN"),
   (["xsux", "cuneiform"], "ggoC5cmDuDBELjG"),
   (["yezi", "yezidi"], "g0jCpBBCCB"),
   (["yiii", "yi"], "ggoBskBD2B"),
   (["zanb", "zanabazarsquare"], "gwmCnC"),
   (["zinh", "inherited", "qaai"], "gYvD1IBkOKaAgXD7qEtBCLkPCBMBGEAGADBmG_BsQBiGgB55DDrDBlrzBPQNveAiHA6iEAk-uBtBCWgR" ++
    "CRHCGeDy6rYvH"),
   (["zyyy", "common"], "AgCaFauBBOBEXAfAhOmBFECT0DAJAGABA9TAGAOADAgBA8EAkQAhEB5mBA1MDiJAvvBCnCBrGBBAtmBANAHDBFBCCAl" ++
    "YLC2CBKDKBORhB-BlBBCCFBaBQpBCE5UWKV_cgIzTCpEgQ9CyMUBABYPHED7CBDA6CBzEPgBlBJAwB_BfwCvBA4CnFguG_BgoWhBmDClFJ0H" ++
    "AgFArMAOByuUBwGJWiBBSBDzEABfaFaKKAtBBgCGBGKEiICEsBDIwCMzBsBkHaktuBD86D8HDzNGWPQ_CzD8B1HKmBC9BDQIBHdE8B1GTMTM" ++
    "2CJYnE0CBmCBBCACBCDBLBABGBgCBDCHBGBbBDBEBADGBzKCjJCxBxjFjCsC8BiWrBEjDMOCOBOBkBKtF4BZBBNrBEIHBOF6E4eDQDMD5GGL" ++
    "EAPLE3BIJGnBIdCLEBOInB3KINCMDKD4BBAEPCLEJHyEBmDmghYAe_C"),
   (["gara", "garay"], "gqjClBDcIB"),
   (["gukh", "gurungkhema"], "go4C5B"),
   (["krai", "kiratrai"], "gq7C5B"),
   (["onao", "olonal"], "wu5DqBEA"),
   (["sunu", "sunuwar"], "g-mChBOJ"),
   (["todr", "todhri"], "guhCzB"),
   (["tutg", "tulutigalari"], "g8kCJBACABlBBJBACABDBJBBIB"),
   (["sidt", "sidetic"], "gqiCZ"),
   (["tols", "tolongsiki"], "wtnCrBEJ"),
   (["berf", "beriaerfe"], "g17CYCY"),
   (["tayo", "taiyo"], "g25DeBVIB")]

/-- the characters used with a script, where these are not just its own -/
def scriptUseRows : List (List String × String) :=
  [(["adlm", "adlam"], "_wBAgBAuwGAxvDA-1uDrCEJEB"),
   (["aghb", "caucasianalbanian"], "kYAsBAsBAxugCzBLA"),
   (["arab", "arabic"], "gwBEB2GBhBwCvBwHhBFqCBcv6FAxvDAuozB_TgBPwDEBmEjfbk7CejCFIIhBFg43BDBaBBBACABJBDBABAGAEABABAB" ++
    "CBBBACABABABABABBBACDBGBDBDBABJBQFCBEBQ0BB"),
   (["armn", "armenian"], "oYAoRlBCxBCCjs9BE"),
   (["avst", "avestan"], "3FA4rLBum3B1BDG"),
   (["beng", "bengali"], "8VA00BBRBaDBHCBCVBGBADDCICBCDIAEBBECYx2EABACBBAIAIACAEACC5_iBA"),
   (["bopo", "bopomofo"], "nWABCNAQB1oLCEJBMKDCAGAjGAJqBwDflkzBB6IE"),
   (["bugi", "buginese"], "gwGbCBv9jBA"),
   (["buhd", "buhid"], "15FBJT"),
   (["cakm", "chakma"], "mvCJwyBJ2lgC0BBR"),
   (["cari", "carian"], "3FAi9HACAzuDAuj1BwB"),
   (["cher", "cherokee"], "gYCBAGBWBLBujE1CCFy7lBvC"),
   (["copt", "coptic", "qaac"], "3FAoSADBBAsDBsDNwkKzDFG3IAom1Bb"),
   (["cpmn", "cyprominoan"], "gogCBu0LiD"),
   (["cprt", "cypriot"], "gogCCEsBDIg2BFCABrBBBDACA"),
   (["cyrl", "cyrillic"], "8VAjCCBABABACAFAuHvJw6FKgFAsCA_DAn_DfjCA8_d_Cu8VBgw4B9BhBA"),
   (["deva", "devanagari"], "8VAjyByCCqBw6EmBBB2fA_5hBJmFfgwcJ"),
   (["dogr", "dogra"], "krCLg2nBJm-b7B"),
   (["dupl", "duployan"], "3FAvSBBAYB34KAjujDqDFMDIHJCH"),
   (["elba", "elbasan"], "3FAtSA6vgCnB"),
   (["ethi", "ethiopic"], "uYAx3DoCBDCGBABDCoBBDCgBBDCGBABDCOB4BBDCiCCfDZmvGWJGBGBGBGBGBGBGBGipfFCFCFJGBGxlvCGBDBBBO"),
   (["geor", "georgian"], "3FAxmBA24ClBBAFACvBw8CqBCC6cAllDlBBAFAjIA"),
   (["glag", "glagolitic"], "3FArSABA-LACAhIAx7CA-6DAl9C_CjPArheAwsuCGBQCGBBBE"),
   (["gong", "gunjalagondi"], "3FAslCB6_kCFBBBkBBBBFHJ"),
   (["gonm", "masaramgondi"], "krCB68kCGBBBrBDABBBIIJ"),
   (["goth", "gothic"], "3FAsSBCAoBA-__Ba"),
   (["gran", "grantha"], "xqCBRBgUN8mEABBeCDB2fAvw8BDBHCBCVBGBBBEBJCBCCCAGAFGCGDE7iDBBA"),
   (["grek", "greek"], "3FAoSBCABABAKAuBACAqBHCDBAEABABCBABTB-BOPmpGEyBEEE0CC-JVCFClBCFCHBABABABeC0BBOBNCFBSCCBI-CAo" ++
    "GA-xiBA6uVuCRA_i0BlC"),
   (["gujr", "gujarati"], "xqCBRB7ICBIBCBVBGBBBECJBCBCCAPDCLHGwpnBJ"),
   (["guru", "gurmukhi"], "xqCBRB7ECBFEBCVBGBBBBBBCABEEBCCDAHDBAHQ5tnBJ"),
   (["hang", "hangul"], "goE_HhwHCEJBMOCGAjGA1B9CxDehCeh3dcjUj9KMWEwBpyJB6IE6BeDFCFCFCC"),
   (["hani", "han"], "3FAouLZB4CM1GaPBCBMBMBMCAGI7FA0EPgBlBJAwBnB4BwBPLzBA4CYKEgDeB_tGgC_vUg4BH4vUtLCpDrbB6IE8jcBMGp" ++
    "7YR-2HButD_2pBgB9oECt0FCwpHPtTitC9QivBq6EFppI"),
   (["hano", "hanunoo"], "g5FW"),
   (["hebr", "hebrew"], "nYBoU2BIaEFop9BZBEBABBBBBJ"),
   (["hira", "hiragana"], "hgMCEJBMQFBAEBD1CCH6CBoqzBB6IEKAtBBhjsB-ISAdCtlQA"),
   (["hung", "oldhungarian"], "6iIACAzuDAPA-x3ByBNyBHF"),
   (["java", "javanese"], "gsqBtCBKEB"),
   (["kali", "kayahli"], "goqBvB"),
   (["kana", "katakana"], "lYAdA9mLCEJBMQFBAEB7CDD_CwHPwGuBB3Ct3yBB6I-BwisBDBGBBBA_ICyBAOD"),
   (["khoj", "khojki"], "m3CJgqnBJmuaRBuB"),
   (["knda", "kannada"], "xqCBRB6YMBCBWBJBECIBCBDHBFCBDCJBC8-DABBGAXABA75iBF"),
   (["kthi", "kaithi"], "mrCJhmJA-veJmiaiCKA"),
   (["latn", "latin"], "hCZGZvBAMACAFWBeBgODAKABCBAJABAGEbOBBBAPCHBBBmBAFAEM1IBqmBBo9BAkgDlBGwBFDFMBlC5BAH_HvJAhCANA" ++
    "QMzCA5BBGAbARoB32Cf3MAoneHalDDxCUOuJAhQqBBIBD28TG6gBZGZlhCFBpBBIl61BeGF"),
   (["limb", "limbu"], "lrCA68DeBLELEADL"),
   (["lina", "lineara"], "nogCsBsmB2JJVKH"),
   (["linb", "linearb"], "gggCLBZBSBBBOCNiB6DFCEsBDI"),
   (["lisu", "lisu"], "8VAQA8pLBkmdvBw1eA"),
   (["lyci", "lycian"], "6iIAlx4Bc"),
   (["lydi", "lydian"], "3FA5rLAu32BZFA"),
   (["mahj", "mahajani"], "3FAslCLg2nBJ2oamB"),
   (["mand", "mandaic"], "gyBA_PbCA"),
   (["mani", "manichaean"], "gyBA_jhCmBEL"),
   (["mero", "meroitichieroglyphs"], "9iIAip6Bf"),
   (["mlym", "malayalam"], "xqCBRB6cMBCByBBCBFEPCZ66DAXA95iBC"),
   (["modi", "modi"], "whqBJmubkCLJ"),
   (["mong", "mongolian"], "ggGZG4CHqBk8BAx-DBFD0y5BM"),
   (["mult", "multani"], "mzCJwgiCGBABDBOBK"),
   (["mymr", "myanmar"], "ggE_EukmBAxFehDfwibT"),
   (["nand", "nandinagari"], "xqCASBgcJ5_DAIAHA15iBFqrcHCtBCK"),
   (["newa", "newa"], "xqCBi8EABBJAGABABAy49B7CBE"),
   (["nkoo", "nko"], "swBAOADAgN6BCC-p9BB"),
   (["orkh", "oldturkic"], "6iIA1uDAvu3BoC"),
   (["orya", "oriya"], "xqCBRB7MCBHCBCVBGBBBECICBCCHCEBBECRirEAXA"),
   (["osge", "osage"], "hYACAGAsCA3qgCjBEjB"),
   (["ougr", "olduyghur"], "gyBAxlhCA9jBZ"),
   (["perm", "oldpermic"], "3FAoSAFCKAvLAs2_BqB"),
   (["phag", "phagspa"], "igGBBAphCAy-DA9he3B"),
   (["phlp", "psalterpahlavi"], "gyBA_phCRHDMG"),
   (["rohg", "hanifirohingya"], "swBAOADAgBAzEArxhCnBIJ"),
   (["runr", "runic"], "g1F4C"),
   (["samr", "samaritan"], "ggCtBCOyvJA"),
   (["shaw", "shavian"], "3FA48gCvB"),
   (["shrd", "sharada"], "xqCAl8EABACBCAJACAi6iBFCAnqa_CgsCH"),
   (["sind", "khudawadi"], "krCBq2nBJ2za6BFJ"),
   (["sinh", "sinhala"], "krCB7gBCBRDXBIBACGDAEFBABHGJCC93DAun9BT"),
   (["sogd", "sogdian"], "gyBAvniCpB"),
   (["sylo", "sylotinagri"], "krCBgEJwwnBsB"),
   (["syrc", "syriac"], "jYBCBBAYCHBBB6WAOBCAgBAKKaAvENB7BCCwIKtsFABA"),
   (["tagb", "tagbanwa"], "15FBpBMBCBB"),
   (["takr", "takri"], "krCBq2nBJmyb5BGJ"),
   (["tale", "taile"], "gYBFBDAzpDJmoCdCE"),
   (["taml", "tamil"], "xqCBRB8QBBFDCBDDBBABBDBDCDLEEDCBDCAGAOU_mEA4gjBAtwaABA3BBjkDxBNA"),
   (["tang", "tangut"], "w_LPvPAwvvCAf_3GgQehDyD"),
   (["telu", "telugu"], "xqCBRB6UMBCBWBPCIBCBDHBBCBBCDCJHI1iEBBABAXA"),
   (["tfng", "tifinagh"], "iYABABDZAswK3BHBOA"),
   (["tglg", "tagalog"], "g4FVJAVB"),
   (["thaa", "thaana"], "swBAOBCAgCJ2IxBgy9BAKA"),
   (["thai", "thai"], "8VAaArBAtBAv2C5BFb"),
   (["tibt", "tibetan"], "g4DnCBjBEmBBjBBOBGEBthID"),
   (["tirh", "tirhuta"], "xqCBRBv7EAMAPA95iBJmibnCIJ"),
   (["toto", "toto"], "8VAz-3De"),
   (["yezi", "yezidi"], "swBAOADAgCJ2giCpBBCCB"),
   (["yiii", "yi"], "hgMBFJCH_GAk4bskBD2B60WE"),
   (["zinh", "inherited", "qaai"], "vYACABODGCACPBBBRBEBDwvBB7qEtBCL2W1BBABEsQBiGfwo3BPQNveAiozBtBCWgRCRHCGeDy6rYvH"),
   (["zyyy", "common"], "AgCaFauBBLBBBEXAfAhOCBJBADABIBABFFECT-DAGABA9TA3GAkQA8qBA1MDnhELCgBBeBJBBBGBKDKBORhB-BlBBCC" ++
    "FBaBQpBCE5UWKV_cgIzTCpEgQWBXCJBDBABZiNADANANAVAxQXfAxBOMDhFJF_CfAguG_BooWZmDCweAOBk1UJWUCLBSBDzEABfaFaF_DGBG" ++
    "KEyMMzBsBjwyB8HDzNGWPQ_CzD8B1HKmBC9BDQIBHdE8B1GTMTM2CbGnE0CBmCBBCACBCDBLBABGBgCBDCHBGBbBDBEBADGBzKCjJCxBxjFj" ++
    "CsC8BiWrBEjDMOCOBOBkBKtF4BZBBNrBEIXF6E4eDQDMD5GGLEAPLE3BIJGnBIdCLEBOInB3KINCMDKD4BBAEPCLEJHyEBmDmghYAe_C"),
   (["gara", "garay"], "swBAOADAg5hClBDcIB"),
   (["gukh", "gurungkhema"], "lrCA681C5B"),
   (["onao", "olonal"], "krCBqj3DqBEA"),
   (["sunu", "sunuwar"], "gYBBAJACAcADAukmChBOJ"),
   (["todr", "todhri"], "hYACACAJABAqCAhzgCzB"),
   (["tutg", "tulutigalari"], "mnDJigEABA75iBF7FAu0aJBACABlBBJBACABDBJBBIB")]

/-- the characters of a script -/
def script? (name : String) : Option CharSet :=
  (scriptRows.find? (·.1.contains name)).map fun row => CharSet.unpack row.2

/-- the characters used with a script -/
def scriptUse? (name : String) : Option CharSet :=
  match scriptUseRows.find? (·.1.contains name) with
  | some row => some (CharSet.unpack row.2)
  | none => script? name

end Gleaner.Unicode
