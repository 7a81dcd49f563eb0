-- SUMMARY: The names of character properties that a pattern may ask for.
import OpenApi.Pattern.Error

/-!
# Property names

A property of characters is asked for by its name alone, if it is a property that
holds or does not hold, a general category or a script, or by the name of a
property and one of its values. Names are compared without regard to case,
blanks, dashes and underscores, and to an `is` in front. Only the names matter
here: whether one is known, not which characters it selects.
-/

namespace OpenApi.Pattern

/-! ## Names -/

/-- Properties that hold or do not hold. -/
def plainProperties : List String :=
  ["ahex", "asciihexdigit", "alpha", "alphabetic", "bidic", "bidicontrol", "ci", "caseignorable",
   "cased", "cwcf", "changeswhencasefolded", "cwcm", "changeswhencasemapped", "cwl",
   "changeswhenlowercased", "cwt", "changeswhentitlecased", "cwu", "changeswhenuppercased",
   "dash", "di", "defaultignorablecodepoint", "dep", "deprecated", "dia", "diacritic", "emoji",
   "ecomp", "emojicomponent", "emod", "emojimodifier", "ebase", "emojimodifierbase", "epres",
   "emojipresentation", "extpict", "extendedpictographic", "ext", "extender", "grbase",
   "graphemebase", "grext", "graphemeextend", "grlink", "graphemelink", "hex", "hexdigit",
   "hyphen", "idsbinaryoperator", "idsb", "idst", "idstrinaryoperator", "idsu",
   "idsunaryoperator", "idcompatmathcontinue", "idcompatmathstart", "idc", "idcontinue", "ids",
   "idstart", "ideo", "ideographic", "joinc", "joincontrol", "loe", "logicalorderexception",
   "lower", "lowercase", "math", "mcm", "modifiercombiningmark", "nchar",
   "noncharactercodepoint", "oalpha", "otheralphabetic", "odi", "otherdefaultignorablecodepoint",
   "ogrext", "othergraphemeextend", "oidc", "otheridcontinue", "oids", "otheridstart", "olower",
   "otherlowercase", "omath", "othermath", "oupper", "otheruppercase", "patsyn", "patternsyntax",
   "patws", "patternwhitespace", "pcm", "prependedconcatenationmark", "qmark", "quotationmark",
   "radical", "ri", "regionalindicator", "sterm", "sentenceterminal", "sd", "softdotted", "term",
   "terminalpunctuation", "uideo", "unifiedideograph", "upper", "uppercase", "vs",
   "variationselector", "wspace", "whitespace", "space", "xidc", "xidcontinue", "xids",
   "xidstart"]

/-- Properties that have values, or that cannot be asked for. -/
def otherProperties : List String :=
  ["cjkaccountingnumeric", "kaccountingnumeric", "cjkothernumeric", "kothernumeric",
   "cjkprimarynumeric", "kprimarynumeric", "nv", "numericvalue", "bmg", "bidimirroringglyph",
   "bpb", "bidipairedbracket", "cf", "casefolding", "cjkcompatibilityvariant",
   "kcompatibilityvariant", "dm", "decompositionmapping", "equideo",
   "equivalentunifiedideograph", "fcnfkc", "fcnfkcclosure", "lc", "lowercasemapping", "nfkccf",
   "nfkccasefold", "nfkcscf", "nfkcsimplecasefold", "scf", "simplecasefolding", "sfc", "slc",
   "simplelowercasemapping", "stc", "simpletitlecasemapping", "suc", "simpleuppercasemapping",
   "tc", "titlecasemapping", "uc", "uppercasemapping", "cjkiicore", "kiicore", "cjkirggsource",
   "kirggsource", "cjkirghsource", "kirghsource", "cjkirgjsource", "kirgjsource",
   "cjkirgkpsource", "kirgkpsource", "cjkirgksource", "kirgksource", "cjkirgmsource",
   "kirgmsource", "cjkirgssource", "kirgssource", "cjkirgtsource", "kirgtsource",
   "cjkirguksource", "kirguksource", "cjkirgusource", "kirgusource", "cjkirgvsource",
   "kirgvsource", "cjkrsunicode", "krsunicode", "unicoderadicalstroke", "urs", "kehcat",
   "kehdesc", "kehhg", "kehifao", "kehjsesh", "kehnomirror", "kehnorotate", "jsn",
   "jamoshortname", "na", "name", "na1", "unicode1name", "namealias", "blk", "block", "bc",
   "bidiclass", "bidim", "bidimirrored", "bpt", "bidipairedbrackettype", "ccc",
   "canonicalcombiningclass", "ce", "compositionexclusion", "compex", "fullcompositionexclusion",
   "cwkcf", "changeswhennfkccasefolded", "dt", "decompositiontype", "ea", "eastasianwidth",
   "hst", "hangulsyllabletype", "incb", "indicconjunctbreak", "inpc", "indicpositionalcategory",
   "insc", "indicsyllabiccategory", "jg", "joininggroup", "jt", "joiningtype", "lb", "linebreak",
   "nfcqc", "nfcquickcheck", "nfdqc", "nfdquickcheck", "nfkcqc", "nfkcquickcheck", "nfkdqc",
   "nfkdquickcheck", "nt", "numerictype", "vo", "verticalorientation", "xonfc", "expandsonnfc",
   "xonfd", "expandsonnfd", "xonfkc", "expandsonnfkc", "xonfkd", "expandsonnfkd", "isc",
   "ocomment"]

/-- General categories of characters, and three sets named like one. -/
def categories : List String :=
  ["c", "other", "cc", "control", "cntrl", "cf", "format", "cn", "unassigned", "co",
   "privateuse", "l", "letter", "lc", "casedletter", "ll", "lowercaseletter", "lm",
   "modifierletter", "lo", "otherletter", "lt", "titlecaseletter", "lu", "uppercaseletter", "m",
   "mark", "combiningmark", "mc", "spacingmark", "me", "enclosingmark", "mn", "nonspacingmark",
   "n", "number", "nd", "decimalnumber", "digit", "nl", "letternumber", "no", "othernumber", "p",
   "punctuation", "punct", "pc", "connectorpunctuation", "pd", "dashpunctuation", "pe",
   "closepunctuation", "pf", "finalpunctuation", "pi", "initialpunctuation", "po",
   "otherpunctuation", "ps", "openpunctuation", "s", "symbol", "sc", "currencysymbol", "sk",
   "modifiersymbol", "sm", "mathsymbol", "so", "othersymbol", "z", "separator", "zl",
   "lineseparator", "zp", "paragraphseparator", "zs", "spaceseparator", "any", "assigned",
   "ascii"]

/-- The category whose members are no characters. -/
def surrogateNames : List String :=
  ["cs", "surrogate"]

/-- Scripts. -/
def scripts : List String :=
  ["adlm", "adlam", "aghb", "caucasianalbanian", "ahom", "arab", "arabic", "armi",
   "imperialaramaic", "armn", "armenian", "avst", "avestan", "bali", "balinese", "bamu", "bamum",
   "bass", "bassavah", "batk", "batak", "beng", "bengali", "bhks", "bhaiksuki", "bopo",
   "bopomofo", "brah", "brahmi", "brai", "braille", "bugi", "buginese", "buhd", "buhid", "cakm",
   "chakma", "cans", "canadianaboriginal", "cari", "carian", "cham", "cher", "cherokee", "chrs",
   "chorasmian", "copt", "coptic", "qaac", "cpmn", "cyprominoan", "cprt", "cypriot", "cyrl",
   "cyrillic", "deva", "devanagari", "diak", "divesakuru", "dogr", "dogra", "dsrt", "deseret",
   "dupl", "duployan", "egyp", "egyptianhieroglyphs", "elba", "elbasan", "elym", "elymaic",
   "ethi", "ethiopic", "geor", "georgian", "glag", "glagolitic", "gong", "gunjalagondi", "gonm",
   "masaramgondi", "goth", "gothic", "gran", "grantha", "grek", "greek", "gujr", "gujarati",
   "guru", "gurmukhi", "hang", "hangul", "hani", "han", "hano", "hanunoo", "hatr", "hatran",
   "hebr", "hebrew", "hira", "hiragana", "hluw", "anatolianhieroglyphs", "hmng", "pahawhhmong",
   "hmnp", "nyiakengpuachuehmong", "hung", "oldhungarian", "ital", "olditalic", "java",
   "javanese", "kali", "kayahli", "kana", "katakana", "kawi", "khar", "kharoshthi", "khmr",
   "khmer", "khoj", "khojki", "kits", "khitansmallscript", "knda", "kannada", "kthi", "kaithi",
   "lana", "taitham", "laoo", "lao", "latn", "latin", "lepc", "lepcha", "limb", "limbu", "lina",
   "lineara", "linb", "linearb", "lisu", "lyci", "lycian", "lydi", "lydian", "mahj", "mahajani",
   "maka", "makasar", "mand", "mandaic", "mani", "manichaean", "marc", "marchen", "medf",
   "medefaidrin", "mend", "mendekikakui", "merc", "meroiticcursive", "mero",
   "meroitichieroglyphs", "mlym", "malayalam", "modi", "mong", "mongolian", "mroo", "mro",
   "mtei", "meeteimayek", "mult", "multani", "mymr", "myanmar", "nagm", "nagmundari", "nand",
   "nandinagari", "narb", "oldnortharabian", "nbat", "nabataean", "newa", "nkoo", "nko", "nshu",
   "nushu", "ogam", "ogham", "olck", "olchiki", "orkh", "oldturkic", "orya", "oriya", "osge",
   "osage", "osma", "osmanya", "ougr", "olduyghur", "palm", "palmyrene", "pauc", "paucinhau",
   "perm", "oldpermic", "phag", "phagspa", "phli", "inscriptionalpahlavi", "phlp",
   "psalterpahlavi", "phnx", "phoenician", "plrd", "miao", "prti", "inscriptionalparthian",
   "rjng", "rejang", "rohg", "hanifirohingya", "runr", "runic", "samr", "samaritan", "sarb",
   "oldsoutharabian", "saur", "saurashtra", "sgnw", "signwriting", "shaw", "shavian", "shrd",
   "sharada", "sidd", "siddham", "sind", "khudawadi", "sinh", "sinhala", "sogd", "sogdian",
   "sogo", "oldsogdian", "sora", "sorasompeng", "soyo", "soyombo", "sund", "sundanese", "sylo",
   "sylotinagri", "syrc", "syriac", "tagb", "tagbanwa", "takr", "takri", "tale", "taile", "talu",
   "newtailue", "taml", "tamil", "tang", "tangut", "tavt", "taiviet", "telu", "telugu", "tfng",
   "tifinagh", "tglg", "tagalog", "thaa", "thaana", "thai", "tibt", "tibetan", "tirh", "tirhuta",
   "tnsa", "tangsa", "toto", "ugar", "ugaritic", "vaii", "vai", "vith", "vithkuqi", "wara",
   "warangciti", "wcho", "wancho", "xpeo", "oldpersian", "xsux", "cuneiform", "yezi", "yezidi",
   "yiii", "yi", "zanb", "zanabazarsquare", "zinh", "inherited", "qaai", "zyyy", "common",
   "gara", "garay", "gukh", "gurungkhema", "krai", "kiratrai", "onao", "olonal", "sunu",
   "sunuwar", "todr", "todhri", "tutg", "tulutigalari"]

/-- Names of scripts without a set of characters. -/
def emptyScripts : List String :=
  ["zzzz", "unknown", "hrkt", "katakanaorhiragana"]

/-- Versions of the character set in which a character was added. -/
def ages : List String :=
  ["1.1", "v11", "2.0", "v20", "2.1", "v21", "3.0", "v30", "3.1", "v31", "3.2", "v32", "4.0",
   "v40", "4.1", "v41", "5.0", "v50", "5.1", "v51", "5.2", "v52", "6.0", "v60", "6.1", "v61",
   "6.2", "v62", "6.3", "v63", "7.0", "v70", "8.0", "v80", "9.0", "v90", "10.0", "v100", "11.0",
   "v110", "12.0", "v120", "12.1", "v121", "13.0", "v130", "14.0", "v140", "15.0", "v150",
   "15.1", "v151", "16.0", "v160"]

/-- Values of Grapheme_Cluster_Break. -/
def graphemeBreaks : List String :=
  ["cn", "control", "cr", "ex", "extend", "l", "lf", "lv", "lvt", "pp", "prepend", "ri",
   "regionalindicator", "sm", "spacingmark", "t", "v", "zwj"]

/-- Values of Word_Break. -/
def wordBreaks : List String :=
  ["cr", "dq", "doublequote", "ex", "extendnumlet", "extend", "fo", "format", "hl",
   "hebrewletter", "ka", "katakana", "le", "aletter", "lf", "mb", "midnumlet", "ml", "midletter",
   "mn", "midnum", "nl", "newline", "nu", "numeric", "ri", "regionalindicator", "sq",
   "singlequote", "wsegspace", "zwj"]

/-- Values of Sentence_Break. -/
def sentenceBreaks : List String :=
  ["at", "aterm", "cl", "close", "cr", "ex", "extend", "fo", "format", "le", "oletter", "lf",
   "lo", "lower", "nu", "numeric", "sc", "scontinue", "se", "sep", "sp", "st", "sterm", "up",
   "upper"]

/-! ## Queries -/

/-- A name without what does not count. The one-letter rest of `isc` is spelled out, since it
would be taken for a category. -/
def plainName (name : String) : String :=
  let chars := name.toList
  let marked := (chars.take 2).map Char.toLower == ['i', 's']
  let kept := (if marked then chars.drop 2 else chars).filter fun c =>
    c.toNat < 0x80 && c ≠ ' ' && c ≠ '_' && c ≠ '-'
  let plain := String.ofList (kept.map Char.toLower)
  if marked && plain == "c" then "isc" else plain

/-- Whether a name alone selects characters, or what is unknown about it. -/
def checkName (name : String) : Except Cause Unit :=
  let plain := plainName name
  let isCategory := ["cf", "sc", "lc"].contains plain
  if !isCategory && plainProperties.contains plain then .ok ()
  else if !isCategory && otherProperties.contains plain then .error .propertyUnknown
  else if !isCategory && valuedNames.contains plain then .error .propertyUnknown
  else if categories.contains plain || scripts.contains plain then .ok ()
  else if surrogateNames.contains plain || emptyScripts.contains plain then
    .error .propertyValueUnknown
  else .error .propertyUnknown
where
  /-- Names of the properties whose values are known. -/
  valuedNames : List String :=
    ["gc", "generalcategory", "sc", "script", "scx", "scriptextensions", "age", "gcb",
     "graphemeclusterbreak", "wb", "wordbreak", "sb", "sentencebreak"]

/-- The values of a property, if it has any that are known. -/
def valuesOf? (plain : String) : Option (List String) :=
  match plain with
  | "gc" | "generalcategory" => some categories
  | "sc" | "script" | "scx" | "scriptextensions" => some scripts
  | "age" => some ages
  | "gcb" | "graphemeclusterbreak" => some graphemeBreaks
  | "wb" | "wordbreak" => some wordBreaks
  | "sb" | "sentencebreak" => some sentenceBreaks
  | _ => none

/-- Whether a query selects characters, or what is unknown about it. -/
def PropertyQuery.check : PropertyQuery → Except Cause Unit
  | .named name => checkName name
  | .valued name value =>
    match valuesOf? (plainName name) with
    | some values =>
      if values.contains (plainName value) then .ok () else .error .propertyValueUnknown
    | none =>
      if (plainProperties ++ otherProperties).contains (plainName name) then
        .error .propertyValueUnknown
      else .error .propertyUnknown

end OpenApi.Pattern
