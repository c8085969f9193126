/-
Module: Paradigm.Pattern.Property
Layer: Text
Purpose: The properties of characters that a pattern may name, as in `\p{Greek}` or
  `\p{Script=Greek}`. Names are compared without regard to case, blanks, hyphens and underscores,
  and without "is" in front.
Imports: none
Main exports: Pattern.Property.normalize, Pattern.Property.isName, Pattern.Property.isValueOf,
  Pattern.Property.isKnown
-/
namespace Paradigm.Pattern.Property

/-! ### Names -/

/-- Properties that a character has or has not. -/
def binaryNames : List String :=
  ["asciihexdigit", "ahex", "alphabetic", "alpha", "bidicontrol", "bidic", "bidimirrored",
    "bidim", "caseignorable", "ci", "cased", "changeswhencasefolded", "cwcf",
    "changeswhencasemapped", "cwcm", "changeswhenlowercased", "cwl", "changeswhentitlecased",
    "cwt", "changeswhenuppercased", "cwu", "dash", "defaultignorablecodepoint", "di",
    "deprecated", "dep", "diacritic", "dia", "emoji", "emojicomponent", "ecomp", "emojimodifier",
    "emod", "emojimodifierbase", "ebase", "emojipresentation", "epres", "extendedpictographic",
    "extpict", "extender", "ext", "graphemebase", "grbase", "graphemeextend", "grext",
    "graphemelink", "grlink", "hexdigit", "hex", "hyphen", "idsbinaryoperator", "idsb",
    "idstrinaryoperator", "idst", "idsunaryoperator", "idsu", "idcompatmathcontinue",
    "idcompatmathstart", "idcontinue", "idc", "idstart", "ids", "ideographic", "ideo",
    "joincontrol", "joinc", "logicalorderexception", "loe", "lowercase", "lower", "math",
    "modifiercombiningmark", "mcm", "noncharactercodepoint", "nchar", "otheralphabetic", "oalpha",
    "otherdefaultignorablecodepoint", "odi", "othergraphemeextend", "ogrext", "otheridcontinue",
    "oidc", "otheridstart", "oids", "otherlowercase", "olower", "othermath", "omath",
    "otheruppercase", "oupper", "patternsyntax", "patsyn", "patternwhitespace", "patws",
    "prependedconcatenationmark", "pcm", "quotationmark", "qmark", "radical", "regionalindicator",
    "ri", "sentenceterminal", "sterm", "softdotted", "sd", "terminalpunctuation", "term",
    "unifiedideograph", "uideo", "uppercase", "upper", "variationselector", "vs", "whitespace",
    "wspace", "space", "xidcontinue", "xidc", "xidstart", "xids"]

/-- General categories, and the three wider classes that are named like them. -/
def categoryNames : List String :=
  ["other", "c", "control", "cc", "cntrl", "format", "cf", "unassigned", "cn", "privateuse", "co",
    "letter", "l", "casedletter", "lc", "lowercaseletter", "ll", "modifierletter", "lm",
    "otherletter", "lo", "titlecaseletter", "lt", "uppercaseletter", "lu", "mark", "m",
    "combiningmark", "spacingmark", "mc", "enclosingmark", "me", "nonspacingmark", "mn", "number",
    "n", "decimalnumber", "nd", "digit", "letternumber", "nl", "othernumber", "no", "punctuation",
    "p", "punct", "connectorpunctuation", "pc", "dashpunctuation", "pd", "closepunctuation", "pe",
    "finalpunctuation", "pf", "initialpunctuation", "pi", "otherpunctuation", "po",
    "openpunctuation", "ps", "symbol", "s", "currencysymbol", "sc", "modifiersymbol", "sk",
    "mathsymbol", "sm", "othersymbol", "so", "separator", "z", "lineseparator", "zl",
    "paragraphseparator", "zp", "spaceseparator", "zs", "any", "assigned", "ascii"]

/-- Scripts. -/
def scriptNames : List String :=
  ["adlm", "adlam", "aghb", "caucasianalbanian", "ahom", "arab", "arabic", "armi",
    "imperialaramaic", "armn", "armenian", "avst", "avestan", "bali", "balinese", "bamu", "bamum",
    "bass", "bassavah", "batk", "batak", "beng", "bengali", "bhks", "bhaiksuki", "bopo",
    "bopomofo", "brah", "brahmi", "brai", "braille", "bugi", "buginese", "buhd", "buhid", "cakm",
    "chakma", "cans", "canadianaboriginal", "cari", "carian", "cham", "cher", "cherokee", "chrs",
    "chorasmian", "copt", "coptic", "qaac", "cpmn", "cyprominoan", "cprt", "cypriot", "cyrl",
    "cyrillic", "deva", "devanagari", "diak", "divesakuru", "dogr", "dogra", "dsrt", "deseret",
    "dupl", "duployan", "egyp", "egyptianhieroglyphs", "elba", "elbasan", "elym", "elymaic",
    "ethi", "ethiopic", "gara", "garay", "geor", "georgian", "glag", "glagolitic", "gong",
    "gunjalagondi", "gonm", "masaramgondi", "goth", "gothic", "gran", "grantha", "grek", "greek",
    "gujr", "gujarati", "gukh", "gurungkhema", "guru", "gurmukhi", "hang", "hangul", "hani",
    "han", "hano", "hanunoo", "hatr", "hatran", "hebr", "hebrew", "hira", "hiragana", "hluw",
    "anatolianhieroglyphs", "hmng", "pahawhhmong", "hmnp", "nyiakengpuachuehmong", "hung",
    "oldhungarian", "ital", "olditalic", "java", "javanese", "kali", "kayahli", "kana",
    "katakana", "kawi", "khar", "kharoshthi", "khmr", "khmer", "khoj", "khojki", "kits",
    "khitansmallscript", "knda", "kannada", "krai", "kiratrai", "kthi", "kaithi", "lana",
    "taitham", "laoo", "lao", "latn", "latin", "lepc", "lepcha", "limb", "limbu", "lina",
    "lineara", "linb", "linearb", "lisu", "lyci", "lycian", "lydi", "lydian", "mahj", "mahajani",
    "maka", "makasar", "mand", "mandaic", "mani", "manichaean", "marc", "marchen", "medf",
    "medefaidrin", "mend", "mendekikakui", "merc", "meroiticcursive", "mero",
    "meroitichieroglyphs", "mlym", "malayalam", "modi", "mong", "mongolian", "mroo", "mro",
    "mtei", "meeteimayek", "mult", "multani", "mymr", "myanmar", "nagm", "nagmundari", "nand",
    "nandinagari", "narb", "oldnortharabian", "nbat", "nabataean", "newa", "nkoo", "nko", "nshu",
    "nushu", "ogam", "ogham", "olck", "olchiki", "onao", "olonal", "orkh", "oldturkic", "orya",
    "oriya", "osge", "osage", "osma", "osmanya", "ougr", "olduyghur", "palm", "palmyrene", "pauc",
    "paucinhau", "perm", "oldpermic", "phag", "phagspa", "phli", "inscriptionalpahlavi", "phlp",
    "psalterpahlavi", "phnx", "phoenician", "plrd", "miao", "prti", "inscriptionalparthian",
    "rjng", "rejang", "rohg", "hanifirohingya", "runr", "runic", "samr", "samaritan", "sarb",
    "oldsoutharabian", "saur", "saurashtra", "sgnw", "signwriting", "shaw", "shavian", "shrd",
    "sharada", "sidd", "siddham", "sind", "khudawadi", "sinh", "sinhala", "sogd", "sogdian",
    "sogo", "oldsogdian", "sora", "sorasompeng", "soyo", "soyombo", "sund", "sundanese", "sunu",
    "sunuwar", "sylo", "sylotinagri", "syrc", "syriac", "tagb", "tagbanwa", "takr", "takri",
    "tale", "taile", "talu", "newtailue", "taml", "tamil", "tang", "tangut", "tavt", "taiviet",
    "telu", "telugu", "tfng", "tifinagh", "tglg", "tagalog", "thaa", "thaana", "thai", "tibt",
    "tibetan", "tirh", "tirhuta", "tnsa", "tangsa", "todr", "todhri", "toto", "tutg",
    "tulutigalari", "ugar", "ugaritic", "vaii", "vai", "vith", "vithkuqi", "wara", "warangciti",
    "wcho", "wancho", "xpeo", "oldpersian", "xsux", "cuneiform", "yezi", "yezidi", "yiii", "yi",
    "zanb", "zanabazarsquare", "zinh", "inherited", "qaai", "zyyy", "common"]

/-- Versions in which characters have been added. -/
def ageNames : List String :=
  ["1.1", "v11", "2.0", "v20", "2.1", "v21", "3.0", "v30", "3.1", "v31", "3.2", "v32", "4.0",
    "v40", "4.1", "v41", "5.0", "v50", "5.1", "v51", "5.2", "v52", "6.0", "v60", "6.1", "v61",
    "6.2", "v62", "6.3", "v63", "7.0", "v70", "8.0", "v80", "9.0", "v90", "10.0", "v100", "11.0",
    "v110", "12.0", "v120", "12.1", "v121", "13.0", "v130", "14.0", "v140", "15.0", "v150",
    "15.1", "v151", "16.0", "v160"]

/-- Values of Grapheme_Cluster_Break. -/
def clusterBreakNames : List String :=
  ["control", "cn", "cr", "extend", "ex", "l", "lf", "lv", "lvt", "prepend", "pp",
    "regionalindicator", "ri", "spacingmark", "sm", "t", "v", "zwj"]

/-- Values of Word_Break. -/
def wordBreakNames : List String :=
  ["aletter", "le", "cr", "doublequote", "dq", "extend", "extendnumlet", "ex", "format", "fo",
    "hebrewletter", "hl", "katakana", "ka", "lf", "midletter", "ml", "midnum", "mn", "midnumlet",
    "mb", "newline", "nl", "numeric", "nu", "regionalindicator", "ri", "singlequote", "sq",
    "wsegspace", "zwj"]

/-- Values of Sentence_Break. -/
def sentenceBreakNames : List String :=
  ["aterm", "at", "close", "cl", "cr", "extend", "ex", "format", "fo", "lf", "lower", "lo",
    "numeric", "nu", "oletter", "le", "scontinue", "sc", "sterm", "st", "sep", "se", "sp",
    "upper", "up"]

/-! ### Comparison -/

/-- Whether a character counts in a name. -/
def counts (c : Char) : Bool := c.toNat < 128 && c != ' ' && c != '_' && c != '-'

/-- The characters that count, in lower case. -/
def folded (name : List Char) : String := String.ofList ((name.filter counts).map Char.toLower)

/-- The form in which names are compared. The letters "is" in front are dropped, but "isc" is a name
by itself and not another spelling of "c". -/
def normalize : List Char → String
  | a :: b :: rest =>
      if a.toLower == 'i' && b.toLower == 's' then
        if folded rest == "c" then "isc" else folded rest
      else folded (a :: b :: rest)
  | name => folded name

/-- Whether a single name is that of a property, a category or a script. -/
def isName (name : List Char) : Bool :=
  let n := normalize name
  binaryNames.contains n || categoryNames.contains n || scriptNames.contains n

/-- The values of a property that has more than two. -/
def valuesOf (property : List Char) : List String :=
  match normalize property with
  | "gc" | "generalcategory" => categoryNames
  | "sc" | "script" | "scx" | "scriptextensions" => scriptNames
  | "age" => ageNames
  | "gcb" | "graphemeclusterbreak" => clusterBreakNames
  | "wb" | "wordbreak" => wordBreakNames
  | "sb" | "sentencebreak" => sentenceBreakNames
  | _ => []

/-- Whether a property has a value. -/
def isValueOf (property value : List Char) : Bool := (valuesOf property).contains (normalize value)

/-! ### Queries -/

/-- The parts of a list before and behind the first place where another list stands. -/
def splitAt? (mark : List Char) : List Char → Option (List Char × List Char)
  | [] => none
  | c :: rest =>
      if mark.isPrefixOf (c :: rest) then some ([], (c :: rest).drop mark.length)
      else (splitAt? mark rest).map fun parts => (c :: parts.1, parts.2)

/-- Whether what stands in braces names a property, or a property and one of its values. The sign
of inequality goes before the colon, and the colon before the sign of equality. -/
def isKnown (query : List Char) : Bool :=
  match [['!', '='], [':'], ['=']].findSome? fun mark => splitAt? mark query with
  | some (property, value) => isValueOf property value
  | none => isName query

/-- Spelling does not matter, and a property is told apart from its values. -/
example : isKnown "Greek".toList ∧ isKnown "is_greek".toList ∧ isKnown "Script!=GREK".toList ∧
    ¬ isKnown "Script".toList ∧ ¬ isKnown "isC".toList ∧
    ¬ isKnown "Alphabetic=Yes".toList := by decide +kernel

end Paradigm.Pattern.Property
