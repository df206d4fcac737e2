/-!
# Character names, E to L

The named characters of HTML whose names begin with E to L, and the code points that each
stands for. The names are case-sensitive.
-/

namespace IndentMarkup.Entity

def namesE : List (String × List Nat) := [
  ("ENG", [330]), ("ETH", [208]), ("Eacute", [201]), ("Ecaron", [282]), ("Ecirc", [202]),
  ("Ecy", [1069]), ("Edot", [278]), ("Efr", [120072]), ("Egrave", [200]), ("Element", [8712]),
  ("Emacr", [274]), ("EmptySmallSquare", [9723]), ("EmptyVerySmallSquare", [9643]), ("Eogon",
  [280]), ("Eopf", [120124]), ("Epsilon", [917]), ("Equal", [10869]), ("EqualTilde", [8770]),
  ("Equilibrium", [8652]), ("Escr", [8496]), ("Esim", [10867]), ("Eta", [919]), ("Euml", [203]),
  ("Exists", [8707]), ("ExponentialE", [8519]), ("eDDot", [10871]), ("eDot", [8785]), ("eacute",
  [233]), ("easter", [10862]), ("ecaron", [283]), ("ecir", [8790]), ("ecirc", [234]), ("ecolon",
  [8789]), ("ecy", [1101]), ("edot", [279]), ("ee", [8519]), ("efDot", [8786]), ("efr",
  [120098]), ("eg", [10906]), ("egrave", [232]), ("egs", [10902]), ("egsdot", [10904]), ("el",
  [10905]), ("elinters", [9191]), ("ell", [8467]), ("els", [10901]), ("elsdot", [10903]),
  ("emacr", [275]), ("empty", [8709]), ("emptyset", [8709]), ("emptyv", [8709]), ("emsp",
  [8195]), ("emsp13", [8196]), ("emsp14", [8197]), ("eng", [331]), ("ensp", [8194]), ("eogon",
  [281]), ("eopf", [120150]), ("epar", [8917]), ("eparsl", [10723]), ("eplus", [10865]),
  ("epsi", [949]), ("epsilon", [949]), ("epsiv", [1013]), ("eqcirc", [8790]), ("eqcolon",
  [8789]), ("eqsim", [8770]), ("eqslantgtr", [10902]), ("eqslantless", [10901]), ("equals",
  [61]), ("equest", [8799]), ("equiv", [8801]), ("equivDD", [10872]), ("eqvparsl", [10725]),
  ("erDot", [8787]), ("erarr", [10609]), ("escr", [8495]), ("esdot", [8784]), ("esim", [8770]),
  ("eta", [951]), ("eth", [240]), ("euml", [235]), ("euro", [8364]), ("excl", [33]), ("exist",
  [8707]), ("expectation", [8496]), ("exponentiale", [8519])]

def namesF : List (String × List Nat) := [
  ("Fcy", [1060]), ("Ffr", [120073]), ("FilledSmallSquare", [9724]), ("FilledVerySmallSquare",
  [9642]), ("Fopf", [120125]), ("ForAll", [8704]), ("Fouriertrf", [8497]), ("Fscr", [8497]),
  ("fallingdotseq", [8786]), ("fcy", [1092]), ("female", [9792]), ("ffilig", [64259]), ("fflig",
  [64256]), ("ffllig", [64260]), ("ffr", [120099]), ("filig", [64257]), ("fjlig", [102, 106]),
  ("flat", [9837]), ("fllig", [64258]), ("fltns", [9649]), ("fnof", [402]), ("fopf", [120151]),
  ("forall", [8704]), ("fork", [8916]), ("forkv", [10969]), ("fpartint", [10765]), ("frac12",
  [189]), ("frac13", [8531]), ("frac14", [188]), ("frac15", [8533]), ("frac16", [8537]),
  ("frac18", [8539]), ("frac23", [8532]), ("frac25", [8534]), ("frac34", [190]), ("frac35",
  [8535]), ("frac38", [8540]), ("frac45", [8536]), ("frac56", [8538]), ("frac58", [8541]),
  ("frac78", [8542]), ("frasl", [8260]), ("frown", [8994]), ("fscr", [119995])]

def namesG : List (String × List Nat) := [
  ("GJcy", [1027]), ("GT", [62]), ("Gamma", [915]), ("Gammad", [988]), ("Gbreve", [286]),
  ("Gcedil", [290]), ("Gcirc", [284]), ("Gcy", [1043]), ("Gdot", [288]), ("Gfr", [120074]),
  ("Gg", [8921]), ("Gopf", [120126]), ("GreaterEqual", [8805]), ("GreaterEqualLess", [8923]),
  ("GreaterFullEqual", [8807]), ("GreaterGreater", [10914]), ("GreaterLess", [8823]),
  ("GreaterSlantEqual", [10878]), ("GreaterTilde", [8819]), ("Gscr", [119970]), ("Gt", [8811]),
  ("gE", [8807]), ("gEl", [10892]), ("gacute", [501]), ("gamma", [947]), ("gammad", [989]),
  ("gap", [10886]), ("gbreve", [287]), ("gcirc", [285]), ("gcy", [1075]), ("gdot", [289]),
  ("ge", [8805]), ("gel", [8923]), ("geq", [8805]), ("geqq", [8807]), ("geqslant", [10878]),
  ("ges", [10878]), ("gescc", [10921]), ("gesdot", [10880]), ("gesdoto", [10882]), ("gesdotol",
  [10884]), ("gesl", [8923, 65024]), ("gesles", [10900]), ("gfr", [120100]), ("gg", [8811]),
  ("ggg", [8921]), ("gimel", [8503]), ("gjcy", [1107]), ("gl", [8823]), ("glE", [10898]),
  ("gla", [10917]), ("glj", [10916]), ("gnE", [8809]), ("gnap", [10890]), ("gnapprox", [10890]),
  ("gne", [10888]), ("gneq", [10888]), ("gneqq", [8809]), ("gnsim", [8935]), ("gopf", [120152]),
  ("grave", [96]), ("gscr", [8458]), ("gsim", [8819]), ("gsime", [10894]), ("gsiml", [10896]),
  ("gt", [62]), ("gtcc", [10919]), ("gtcir", [10874]), ("gtdot", [8919]), ("gtlPar", [10645]),
  ("gtquest", [10876]), ("gtrapprox", [10886]), ("gtrarr", [10616]), ("gtrdot", [8919]),
  ("gtreqless", [8923]), ("gtreqqless", [10892]), ("gtrless", [8823]), ("gtrsim", [8819]),
  ("gvertneqq", [8809, 65024]), ("gvnE", [8809, 65024])]

def namesH : List (String × List Nat) := [
  ("HARDcy", [1066]), ("Hacek", [711]), ("Hat", [94]), ("Hcirc", [292]), ("Hfr", [8460]),
  ("HilbertSpace", [8459]), ("Hopf", [8461]), ("HorizontalLine", [9472]), ("Hscr", [8459]),
  ("Hstrok", [294]), ("HumpDownHump", [8782]), ("HumpEqual", [8783]), ("hArr", [8660]),
  ("hairsp", [8202]), ("half", [189]), ("hamilt", [8459]), ("hardcy", [1098]), ("harr", [8596]),
  ("harrcir", [10568]), ("harrw", [8621]), ("hbar", [8463]), ("hcirc", [293]), ("hearts",
  [9829]), ("heartsuit", [9829]), ("hellip", [8230]), ("hercon", [8889]), ("hfr", [120101]),
  ("hksearow", [10533]), ("hkswarow", [10534]), ("hoarr", [8703]), ("homtht", [8763]),
  ("hookleftarrow", [8617]), ("hookrightarrow", [8618]), ("hopf", [120153]), ("horbar", [8213]),
  ("hscr", [119997]), ("hslash", [8463]), ("hstrok", [295]), ("hybull", [8259]), ("hyphen",
  [8208])]

def namesI : List (String × List Nat) := [
  ("IEcy", [1045]), ("IJlig", [306]), ("IOcy", [1025]), ("Iacute", [205]), ("Icirc", [206]),
  ("Icy", [1048]), ("Idot", [304]), ("Ifr", [8465]), ("Igrave", [204]), ("Im", [8465]),
  ("Imacr", [298]), ("ImaginaryI", [8520]), ("Implies", [8658]), ("Int", [8748]), ("Integral",
  [8747]), ("Intersection", [8898]), ("InvisibleComma", [8291]), ("InvisibleTimes", [8290]),
  ("Iogon", [302]), ("Iopf", [120128]), ("Iota", [921]), ("Iscr", [8464]), ("Itilde", [296]),
  ("Iukcy", [1030]), ("Iuml", [207]), ("iacute", [237]), ("ic", [8291]), ("icirc", [238]),
  ("icy", [1080]), ("iecy", [1077]), ("iexcl", [161]), ("iff", [8660]), ("ifr", [120102]),
  ("igrave", [236]), ("ii", [8520]), ("iiiint", [10764]), ("iiint", [8749]), ("iinfin",
  [10716]), ("iiota", [8489]), ("ijlig", [307]), ("imacr", [299]), ("image", [8465]),
  ("imagline", [8464]), ("imagpart", [8465]), ("imath", [305]), ("imof", [8887]), ("imped",
  [437]), ("in", [8712]), ("incare", [8453]), ("infin", [8734]), ("infintie", [10717]),
  ("inodot", [305]), ("int", [8747]), ("intcal", [8890]), ("integers", [8484]), ("intercal",
  [8890]), ("intlarhk", [10775]), ("intprod", [10812]), ("iocy", [1105]), ("iogon", [303]),
  ("iopf", [120154]), ("iota", [953]), ("iprod", [10812]), ("iquest", [191]), ("iscr",
  [119998]), ("isin", [8712]), ("isinE", [8953]), ("isindot", [8949]), ("isins", [8948]),
  ("isinsv", [8947]), ("isinv", [8712]), ("it", [8290]), ("itilde", [297]), ("iukcy", [1110]),
  ("iuml", [239])]

def namesJ : List (String × List Nat) := [
  ("Jcirc", [308]), ("Jcy", [1049]), ("Jfr", [120077]), ("Jopf", [120129]), ("Jscr", [119973]),
  ("Jsercy", [1032]), ("Jukcy", [1028]), ("jcirc", [309]), ("jcy", [1081]), ("jfr", [120103]),
  ("jmath", [567]), ("jopf", [120155]), ("jscr", [119999]), ("jsercy", [1112]), ("jukcy",
  [1108])]

def namesK : List (String × List Nat) := [
  ("KHcy", [1061]), ("KJcy", [1036]), ("Kappa", [922]), ("Kcedil", [310]), ("Kcy", [1050]),
  ("Kfr", [120078]), ("Kopf", [120130]), ("Kscr", [119974]), ("kappa", [954]), ("kappav",
  [1008]), ("kcedil", [311]), ("kcy", [1082]), ("kfr", [120104]), ("kgreen", [312]), ("khcy",
  [1093]), ("kjcy", [1116]), ("kopf", [120156]), ("kscr", [120000])]

def namesL : List (String × List Nat) := [
  ("LJcy", [1033]), ("LT", [60]), ("Lacute", [313]), ("Lambda", [923]), ("Lang", [10218]),
  ("Laplacetrf", [8466]), ("Larr", [8606]), ("Lcaron", [317]), ("Lcedil", [315]), ("Lcy",
  [1051]), ("LeftAngleBracket", [10216]), ("LeftArrow", [8592]), ("LeftArrowBar", [8676]),
  ("LeftArrowRightArrow", [8646]), ("LeftCeiling", [8968]), ("LeftDoubleBracket", [10214]),
  ("LeftDownTeeVector", [10593]), ("LeftDownVector", [8643]), ("LeftDownVectorBar", [10585]),
  ("LeftFloor", [8970]), ("LeftRightArrow", [8596]), ("LeftRightVector", [10574]), ("LeftTee",
  [8867]), ("LeftTeeArrow", [8612]), ("LeftTeeVector", [10586]), ("LeftTriangle", [8882]),
  ("LeftTriangleBar", [10703]), ("LeftTriangleEqual", [8884]), ("LeftUpDownVector", [10577]),
  ("LeftUpTeeVector", [10592]), ("LeftUpVector", [8639]), ("LeftUpVectorBar", [10584]),
  ("LeftVector", [8636]), ("LeftVectorBar", [10578]), ("Leftarrow", [8656]), ("Leftrightarrow",
  [8660]), ("LessEqualGreater", [8922]), ("LessFullEqual", [8806]), ("LessGreater", [8822]),
  ("LessLess", [10913]), ("LessSlantEqual", [10877]), ("LessTilde", [8818]), ("Lfr", [120079]),
  ("Ll", [8920]), ("Lleftarrow", [8666]), ("Lmidot", [319]), ("LongLeftArrow", [10229]),
  ("LongLeftRightArrow", [10231]), ("LongRightArrow", [10230]), ("Longleftarrow", [10232]),
  ("Longleftrightarrow", [10234]), ("Longrightarrow", [10233]), ("Lopf", [120131]),
  ("LowerLeftArrow", [8601]), ("LowerRightArrow", [8600]), ("Lscr", [8466]), ("Lsh", [8624]),
  ("Lstrok", [321]), ("Lt", [8810]), ("lAarr", [8666]), ("lArr", [8656]), ("lAtail", [10523]),
  ("lBarr", [10510]), ("lE", [8806]), ("lEg", [10891]), ("lHar", [10594]), ("lacute", [314]),
  ("laemptyv", [10676]), ("lagran", [8466]), ("lambda", [955]), ("lang", [10216]), ("langd",
  [10641]), ("langle", [10216]), ("lap", [10885]), ("laquo", [171]), ("larr", [8592]), ("larrb",
  [8676]), ("larrbfs", [10527]), ("larrfs", [10525]), ("larrhk", [8617]), ("larrlp", [8619]),
  ("larrpl", [10553]), ("larrsim", [10611]), ("larrtl", [8610]), ("lat", [10923]), ("latail",
  [10521]), ("late", [10925]), ("lates", [10925, 65024]), ("lbarr", [10508]), ("lbbrk",
  [10098]), ("lbrace", [123]), ("lbrack", [91]), ("lbrke", [10635]), ("lbrksld", [10639]),
  ("lbrkslu", [10637]), ("lcaron", [318]), ("lcedil", [316]), ("lceil", [8968]), ("lcub",
  [123]), ("lcy", [1083]), ("ldca", [10550]), ("ldquo", [8220]), ("ldquor", [8222]), ("ldrdhar",
  [10599]), ("ldrushar", [10571]), ("ldsh", [8626]), ("le", [8804]), ("leftarrow", [8592]),
  ("leftarrowtail", [8610]), ("leftharpoondown", [8637]), ("leftharpoonup", [8636]),
  ("leftleftarrows", [8647]), ("leftrightarrow", [8596]), ("leftrightarrows", [8646]),
  ("leftrightharpoons", [8651]), ("leftrightsquigarrow", [8621]), ("leftthreetimes", [8907]),
  ("leg", [8922]), ("leq", [8804]), ("leqq", [8806]), ("leqslant", [10877]), ("les", [10877]),
  ("lescc", [10920]), ("lesdot", [10879]), ("lesdoto", [10881]), ("lesdotor", [10883]), ("lesg",
  [8922, 65024]), ("lesges", [10899]), ("lessapprox", [10885]), ("lessdot", [8918]),
  ("lesseqgtr", [8922]), ("lesseqqgtr", [10891]), ("lessgtr", [8822]), ("lesssim", [8818]),
  ("lfisht", [10620]), ("lfloor", [8970]), ("lfr", [120105]), ("lg", [8822]), ("lgE", [10897]),
  ("lhard", [8637]), ("lharu", [8636]), ("lharul", [10602]), ("lhblk", [9604]), ("ljcy",
  [1113]), ("ll", [8810]), ("llarr", [8647]), ("llcorner", [8990]), ("llhard", [10603]),
  ("lltri", [9722]), ("lmidot", [320]), ("lmoust", [9136]), ("lmoustache", [9136]), ("lnE",
  [8808]), ("lnap", [10889]), ("lnapprox", [10889]), ("lne", [10887]), ("lneq", [10887]),
  ("lneqq", [8808]), ("lnsim", [8934]), ("loang", [10220]), ("loarr", [8701]), ("lobrk",
  [10214]), ("longleftarrow", [10229]), ("longleftrightarrow", [10231]), ("longmapsto",
  [10236]), ("longrightarrow", [10230]), ("looparrowleft", [8619]), ("looparrowright", [8620]),
  ("lopar", [10629]), ("lopf", [120157]), ("loplus", [10797]), ("lotimes", [10804]), ("lowast",
  [8727]), ("lowbar", [95]), ("loz", [9674]), ("lozenge", [9674]), ("lozf", [10731]), ("lpar",
  [40]), ("lparlt", [10643]), ("lrarr", [8646]), ("lrcorner", [8991]), ("lrhar", [8651]),
  ("lrhard", [10605]), ("lrm", [8206]), ("lrtri", [8895]), ("lsaquo", [8249]), ("lscr",
  [120001]), ("lsh", [8624]), ("lsim", [8818]), ("lsime", [10893]), ("lsimg", [10895]), ("lsqb",
  [91]), ("lsquo", [8216]), ("lsquor", [8218]), ("lstrok", [322]), ("lt", [60]), ("ltcc",
  [10918]), ("ltcir", [10873]), ("ltdot", [8918]), ("lthree", [8907]), ("ltimes", [8905]),
  ("ltlarr", [10614]), ("ltquest", [10875]), ("ltrPar", [10646]), ("ltri", [9667]), ("ltrie",
  [8884]), ("ltrif", [9666]), ("lurdshar", [10570]), ("luruhar", [10598]), ("lvertneqq", [8808,
  65024]), ("lvnE", [8808, 65024])]

end IndentMarkup.Entity
