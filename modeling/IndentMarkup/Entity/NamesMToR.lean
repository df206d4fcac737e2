/-!
# Character names, M to R

The named characters of HTML whose names begin with M to R, and the code points that each
stands for. The names are case-sensitive.
-/

namespace IndentMarkup.Entity

def namesM : List (String × List Nat) := [
  ("Map", [10501]), ("Mcy", [1052]), ("MediumSpace", [8287]), ("Mellintrf", [8499]), ("Mfr",
  [120080]), ("MinusPlus", [8723]), ("Mopf", [120132]), ("Mscr", [8499]), ("Mu", [924]),
  ("mDDot", [8762]), ("macr", [175]), ("male", [9794]), ("malt", [10016]), ("maltese", [10016]),
  ("map", [8614]), ("mapsto", [8614]), ("mapstodown", [8615]), ("mapstoleft", [8612]),
  ("mapstoup", [8613]), ("marker", [9646]), ("mcomma", [10793]), ("mcy", [1084]), ("mdash",
  [8212]), ("measuredangle", [8737]), ("mfr", [120106]), ("mho", [8487]), ("micro", [181]),
  ("mid", [8739]), ("midast", [42]), ("midcir", [10992]), ("middot", [183]), ("minus", [8722]),
  ("minusb", [8863]), ("minusd", [8760]), ("minusdu", [10794]), ("mlcp", [10971]), ("mldr",
  [8230]), ("mnplus", [8723]), ("models", [8871]), ("mopf", [120158]), ("mp", [8723]), ("mscr",
  [120002]), ("mstpos", [8766]), ("mu", [956]), ("multimap", [8888]), ("mumap", [8888])]

def namesN : List (String × List Nat) := [
  ("NJcy", [1034]), ("Nacute", [323]), ("Ncaron", [327]), ("Ncedil", [325]), ("Ncy", [1053]),
  ("NegativeMediumSpace", [8203]), ("NegativeThickSpace", [8203]), ("NegativeThinSpace",
  [8203]), ("NegativeVeryThinSpace", [8203]), ("NestedGreaterGreater", [8811]),
  ("NestedLessLess", [8810]), ("NewLine", [10]), ("Nfr", [120081]), ("NoBreak", [8288]),
  ("NonBreakingSpace", [160]), ("Nopf", [8469]), ("Not", [10988]), ("NotCongruent", [8802]),
  ("NotCupCap", [8813]), ("NotDoubleVerticalBar", [8742]), ("NotElement", [8713]), ("NotEqual",
  [8800]), ("NotEqualTilde", [8770, 824]), ("NotExists", [8708]), ("NotGreater", [8815]),
  ("NotGreaterEqual", [8817]), ("NotGreaterFullEqual", [8807, 824]), ("NotGreaterGreater",
  [8811, 824]), ("NotGreaterLess", [8825]), ("NotGreaterSlantEqual", [10878, 824]),
  ("NotGreaterTilde", [8821]), ("NotHumpDownHump", [8782, 824]), ("NotHumpEqual", [8783, 824]),
  ("NotLeftTriangle", [8938]), ("NotLeftTriangleBar", [10703, 824]), ("NotLeftTriangleEqual",
  [8940]), ("NotLess", [8814]), ("NotLessEqual", [8816]), ("NotLessGreater", [8824]),
  ("NotLessLess", [8810, 824]), ("NotLessSlantEqual", [10877, 824]), ("NotLessTilde", [8820]),
  ("NotNestedGreaterGreater", [10914, 824]), ("NotNestedLessLess", [10913, 824]),
  ("NotPrecedes", [8832]), ("NotPrecedesEqual", [10927, 824]), ("NotPrecedesSlantEqual",
  [8928]), ("NotReverseElement", [8716]), ("NotRightTriangle", [8939]), ("NotRightTriangleBar",
  [10704, 824]), ("NotRightTriangleEqual", [8941]), ("NotSquareSubset", [8847, 824]),
  ("NotSquareSubsetEqual", [8930]), ("NotSquareSuperset", [8848, 824]),
  ("NotSquareSupersetEqual", [8931]), ("NotSubset", [8834, 8402]), ("NotSubsetEqual", [8840]),
  ("NotSucceeds", [8833]), ("NotSucceedsEqual", [10928, 824]), ("NotSucceedsSlantEqual",
  [8929]), ("NotSucceedsTilde", [8831, 824]), ("NotSuperset", [8835, 8402]),
  ("NotSupersetEqual", [8841]), ("NotTilde", [8769]), ("NotTildeEqual", [8772]),
  ("NotTildeFullEqual", [8775]), ("NotTildeTilde", [8777]), ("NotVerticalBar", [8740]), ("Nscr",
  [119977]), ("Ntilde", [209]), ("Nu", [925]), ("nGg", [8921, 824]), ("nGt", [8811, 8402]),
  ("nGtv", [8811, 824]), ("nLeftarrow", [8653]), ("nLeftrightarrow", [8654]), ("nLl", [8920,
  824]), ("nLt", [8810, 8402]), ("nLtv", [8810, 824]), ("nRightarrow", [8655]), ("nVDash",
  [8879]), ("nVdash", [8878]), ("nabla", [8711]), ("nacute", [324]), ("nang", [8736, 8402]),
  ("nap", [8777]), ("napE", [10864, 824]), ("napid", [8779, 824]), ("napos", [329]), ("napprox",
  [8777]), ("natur", [9838]), ("natural", [9838]), ("naturals", [8469]), ("nbsp", [160]),
  ("nbump", [8782, 824]), ("nbumpe", [8783, 824]), ("ncap", [10819]), ("ncaron", [328]),
  ("ncedil", [326]), ("ncong", [8775]), ("ncongdot", [10861, 824]), ("ncup", [10818]), ("ncy",
  [1085]), ("ndash", [8211]), ("ne", [8800]), ("neArr", [8663]), ("nearhk", [10532]), ("nearr",
  [8599]), ("nearrow", [8599]), ("nedot", [8784, 824]), ("nequiv", [8802]), ("nesear", [10536]),
  ("nesim", [8770, 824]), ("nexist", [8708]), ("nexists", [8708]), ("nfr", [120107]), ("ngE",
  [8807, 824]), ("nge", [8817]), ("ngeq", [8817]), ("ngeqq", [8807, 824]), ("ngeqslant", [10878,
  824]), ("nges", [10878, 824]), ("ngsim", [8821]), ("ngt", [8815]), ("ngtr", [8815]), ("nhArr",
  [8654]), ("nharr", [8622]), ("nhpar", [10994]), ("ni", [8715]), ("nis", [8956]), ("nisd",
  [8954]), ("niv", [8715]), ("njcy", [1114]), ("nlArr", [8653]), ("nlE", [8806, 824]), ("nlarr",
  [8602]), ("nldr", [8229]), ("nle", [8816]), ("nleftarrow", [8602]), ("nleftrightarrow",
  [8622]), ("nleq", [8816]), ("nleqq", [8806, 824]), ("nleqslant", [10877, 824]), ("nles",
  [10877, 824]), ("nless", [8814]), ("nlsim", [8820]), ("nlt", [8814]), ("nltri", [8938]),
  ("nltrie", [8940]), ("nmid", [8740]), ("nopf", [120159]), ("not", [172]), ("notin", [8713]),
  ("notinE", [8953, 824]), ("notindot", [8949, 824]), ("notinva", [8713]), ("notinvb", [8951]),
  ("notinvc", [8950]), ("notni", [8716]), ("notniva", [8716]), ("notnivb", [8958]), ("notnivc",
  [8957]), ("npar", [8742]), ("nparallel", [8742]), ("nparsl", [11005, 8421]), ("npart", [8706,
  824]), ("npolint", [10772]), ("npr", [8832]), ("nprcue", [8928]), ("npre", [10927, 824]),
  ("nprec", [8832]), ("npreceq", [10927, 824]), ("nrArr", [8655]), ("nrarr", [8603]), ("nrarrc",
  [10547, 824]), ("nrarrw", [8605, 824]), ("nrightarrow", [8603]), ("nrtri", [8939]), ("nrtrie",
  [8941]), ("nsc", [8833]), ("nsccue", [8929]), ("nsce", [10928, 824]), ("nscr", [120003]),
  ("nshortmid", [8740]), ("nshortparallel", [8742]), ("nsim", [8769]), ("nsime", [8772]),
  ("nsimeq", [8772]), ("nsmid", [8740]), ("nspar", [8742]), ("nsqsube", [8930]), ("nsqsupe",
  [8931]), ("nsub", [8836]), ("nsubE", [10949, 824]), ("nsube", [8840]), ("nsubset", [8834,
  8402]), ("nsubseteq", [8840]), ("nsubseteqq", [10949, 824]), ("nsucc", [8833]), ("nsucceq",
  [10928, 824]), ("nsup", [8837]), ("nsupE", [10950, 824]), ("nsupe", [8841]), ("nsupset",
  [8835, 8402]), ("nsupseteq", [8841]), ("nsupseteqq", [10950, 824]), ("ntgl", [8825]),
  ("ntilde", [241]), ("ntlg", [8824]), ("ntriangleleft", [8938]), ("ntrianglelefteq", [8940]),
  ("ntriangleright", [8939]), ("ntrianglerighteq", [8941]), ("nu", [957]), ("num", [35]),
  ("numero", [8470]), ("numsp", [8199]), ("nvDash", [8877]), ("nvHarr", [10500]), ("nvap",
  [8781, 8402]), ("nvdash", [8876]), ("nvge", [8805, 8402]), ("nvgt", [62, 8402]), ("nvinfin",
  [10718]), ("nvlArr", [10498]), ("nvle", [8804, 8402]), ("nvlt", [60, 8402]), ("nvltrie",
  [8884, 8402]), ("nvrArr", [10499]), ("nvrtrie", [8885, 8402]), ("nvsim", [8764, 8402]),
  ("nwArr", [8662]), ("nwarhk", [10531]), ("nwarr", [8598]), ("nwarrow", [8598]), ("nwnear",
  [10535])]

def namesO : List (String × List Nat) := [
  ("OElig", [338]), ("Oacute", [211]), ("Ocirc", [212]), ("Ocy", [1054]), ("Odblac", [336]),
  ("Ofr", [120082]), ("Ograve", [210]), ("Omacr", [332]), ("Omega", [937]), ("Omicron", [927]),
  ("Oopf", [120134]), ("OpenCurlyDoubleQuote", [8220]), ("OpenCurlyQuote", [8216]), ("Or",
  [10836]), ("Oscr", [119978]), ("Oslash", [216]), ("Otilde", [213]), ("Otimes", [10807]),
  ("Ouml", [214]), ("OverBar", [8254]), ("OverBrace", [9182]), ("OverBracket", [9140]),
  ("OverParenthesis", [9180]), ("oS", [9416]), ("oacute", [243]), ("oast", [8859]), ("ocir",
  [8858]), ("ocirc", [244]), ("ocy", [1086]), ("odash", [8861]), ("odblac", [337]), ("odiv",
  [10808]), ("odot", [8857]), ("odsold", [10684]), ("oelig", [339]), ("ofcir", [10687]), ("ofr",
  [120108]), ("ogon", [731]), ("ograve", [242]), ("ogt", [10689]), ("ohbar", [10677]), ("ohm",
  [937]), ("oint", [8750]), ("olarr", [8634]), ("olcir", [10686]), ("olcross", [10683]),
  ("oline", [8254]), ("olt", [10688]), ("omacr", [333]), ("omega", [969]), ("omicron", [959]),
  ("omid", [10678]), ("ominus", [8854]), ("oopf", [120160]), ("opar", [10679]), ("operp",
  [10681]), ("oplus", [8853]), ("or", [8744]), ("orarr", [8635]), ("ord", [10845]), ("order",
  [8500]), ("orderof", [8500]), ("ordf", [170]), ("ordm", [186]), ("origof", [8886]), ("oror",
  [10838]), ("orslope", [10839]), ("orv", [10843]), ("oscr", [8500]), ("oslash", [248]),
  ("osol", [8856]), ("otilde", [245]), ("otimes", [8855]), ("otimesas", [10806]), ("ouml",
  [246]), ("ovbar", [9021])]

def namesP : List (String × List Nat) := [
  ("PartialD", [8706]), ("Pcy", [1055]), ("Pfr", [120083]), ("Phi", [934]), ("Pi", [928]),
  ("PlusMinus", [177]), ("Poincareplane", [8460]), ("Popf", [8473]), ("Pr", [10939]),
  ("Precedes", [8826]), ("PrecedesEqual", [10927]), ("PrecedesSlantEqual", [8828]),
  ("PrecedesTilde", [8830]), ("Prime", [8243]), ("Product", [8719]), ("Proportion", [8759]),
  ("Proportional", [8733]), ("Pscr", [119979]), ("Psi", [936]), ("par", [8741]), ("para",
  [182]), ("parallel", [8741]), ("parsim", [10995]), ("parsl", [11005]), ("part", [8706]),
  ("pcy", [1087]), ("percnt", [37]), ("period", [46]), ("permil", [8240]), ("perp", [8869]),
  ("pertenk", [8241]), ("pfr", [120109]), ("phi", [966]), ("phiv", [981]), ("phmmat", [8499]),
  ("phone", [9742]), ("pi", [960]), ("pitchfork", [8916]), ("piv", [982]), ("planck", [8463]),
  ("planckh", [8462]), ("plankv", [8463]), ("plus", [43]), ("plusacir", [10787]), ("plusb",
  [8862]), ("pluscir", [10786]), ("plusdo", [8724]), ("plusdu", [10789]), ("pluse", [10866]),
  ("plusmn", [177]), ("plussim", [10790]), ("plustwo", [10791]), ("pm", [177]), ("pointint",
  [10773]), ("popf", [120161]), ("pound", [163]), ("pr", [8826]), ("prE", [10931]), ("prap",
  [10935]), ("prcue", [8828]), ("pre", [10927]), ("prec", [8826]), ("precapprox", [10935]),
  ("preccurlyeq", [8828]), ("preceq", [10927]), ("precnapprox", [10937]), ("precneqq", [10933]),
  ("precnsim", [8936]), ("precsim", [8830]), ("prime", [8242]), ("primes", [8473]), ("prnE",
  [10933]), ("prnap", [10937]), ("prnsim", [8936]), ("prod", [8719]), ("profalar", [9006]),
  ("profline", [8978]), ("profsurf", [8979]), ("prop", [8733]), ("propto", [8733]), ("prsim",
  [8830]), ("prurel", [8880]), ("pscr", [120005]), ("psi", [968]), ("puncsp", [8200])]

def namesQ : List (String × List Nat) := [
  ("QUOT", [34]), ("Qfr", [120084]), ("Qopf", [8474]), ("Qscr", [119980]), ("qfr", [120110]),
  ("qint", [10764]), ("qopf", [120162]), ("qprime", [8279]), ("qscr", [120006]), ("quaternions",
  [8461]), ("quatint", [10774]), ("quest", [63]), ("questeq", [8799]), ("quot", [34])]

def namesR : List (String × List Nat) := [
  ("RBarr", [10512]), ("REG", [174]), ("Racute", [340]), ("Rang", [10219]), ("Rarr", [8608]),
  ("Rarrtl", [10518]), ("Rcaron", [344]), ("Rcedil", [342]), ("Rcy", [1056]), ("Re", [8476]),
  ("ReverseElement", [8715]), ("ReverseEquilibrium", [8651]), ("ReverseUpEquilibrium", [10607]),
  ("Rfr", [8476]), ("Rho", [929]), ("RightAngleBracket", [10217]), ("RightArrow", [8594]),
  ("RightArrowBar", [8677]), ("RightArrowLeftArrow", [8644]), ("RightCeiling", [8969]),
  ("RightDoubleBracket", [10215]), ("RightDownTeeVector", [10589]), ("RightDownVector", [8642]),
  ("RightDownVectorBar", [10581]), ("RightFloor", [8971]), ("RightTee", [8866]),
  ("RightTeeArrow", [8614]), ("RightTeeVector", [10587]), ("RightTriangle", [8883]),
  ("RightTriangleBar", [10704]), ("RightTriangleEqual", [8885]), ("RightUpDownVector", [10575]),
  ("RightUpTeeVector", [10588]), ("RightUpVector", [8638]), ("RightUpVectorBar", [10580]),
  ("RightVector", [8640]), ("RightVectorBar", [10579]), ("Rightarrow", [8658]), ("Ropf",
  [8477]), ("RoundImplies", [10608]), ("Rrightarrow", [8667]), ("Rscr", [8475]), ("Rsh",
  [8625]), ("RuleDelayed", [10740]), ("rAarr", [8667]), ("rArr", [8658]), ("rAtail", [10524]),
  ("rBarr", [10511]), ("rHar", [10596]), ("race", [8765, 817]), ("racute", [341]), ("radic",
  [8730]), ("raemptyv", [10675]), ("rang", [10217]), ("rangd", [10642]), ("range", [10661]),
  ("rangle", [10217]), ("raquo", [187]), ("rarr", [8594]), ("rarrap", [10613]), ("rarrb",
  [8677]), ("rarrbfs", [10528]), ("rarrc", [10547]), ("rarrfs", [10526]), ("rarrhk", [8618]),
  ("rarrlp", [8620]), ("rarrpl", [10565]), ("rarrsim", [10612]), ("rarrtl", [8611]), ("rarrw",
  [8605]), ("ratail", [10522]), ("ratio", [8758]), ("rationals", [8474]), ("rbarr", [10509]),
  ("rbbrk", [10099]), ("rbrace", [125]), ("rbrack", [93]), ("rbrke", [10636]), ("rbrksld",
  [10638]), ("rbrkslu", [10640]), ("rcaron", [345]), ("rcedil", [343]), ("rceil", [8969]),
  ("rcub", [125]), ("rcy", [1088]), ("rdca", [10551]), ("rdldhar", [10601]), ("rdquo", [8221]),
  ("rdquor", [8221]), ("rdsh", [8627]), ("real", [8476]), ("realine", [8475]), ("realpart",
  [8476]), ("reals", [8477]), ("rect", [9645]), ("reg", [174]), ("rfisht", [10621]), ("rfloor",
  [8971]), ("rfr", [120111]), ("rhard", [8641]), ("rharu", [8640]), ("rharul", [10604]), ("rho",
  [961]), ("rhov", [1009]), ("rightarrow", [8594]), ("rightarrowtail", [8611]),
  ("rightharpoondown", [8641]), ("rightharpoonup", [8640]), ("rightleftarrows", [8644]),
  ("rightleftharpoons", [8652]), ("rightrightarrows", [8649]), ("rightsquigarrow", [8605]),
  ("rightthreetimes", [8908]), ("ring", [730]), ("risingdotseq", [8787]), ("rlarr", [8644]),
  ("rlhar", [8652]), ("rlm", [8207]), ("rmoust", [9137]), ("rmoustache", [9137]), ("rnmid",
  [10990]), ("roang", [10221]), ("roarr", [8702]), ("robrk", [10215]), ("ropar", [10630]),
  ("ropf", [120163]), ("roplus", [10798]), ("rotimes", [10805]), ("rpar", [41]), ("rpargt",
  [10644]), ("rppolint", [10770]), ("rrarr", [8649]), ("rsaquo", [8250]), ("rscr", [120007]),
  ("rsh", [8625]), ("rsqb", [93]), ("rsquo", [8217]), ("rsquor", [8217]), ("rthree", [8908]),
  ("rtimes", [8906]), ("rtri", [9657]), ("rtrie", [8885]), ("rtrif", [9656]), ("rtriltri",
  [10702]), ("ruluhar", [10600]), ("rx", [8478])]

end IndentMarkup.Entity
