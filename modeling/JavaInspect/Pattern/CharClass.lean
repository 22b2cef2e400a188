import JavaInspect.Text.Blank

/-!
# Character classes

The sets of characters that a pattern tells apart: ranges, the digits, word
characters and blanks of all scripts, and what can be combined from them. A
class whose case is folded holds a character as soon as it holds the same letter
in another case.
-/

namespace JavaInspect.Pattern

/-- A set of characters. -/
inductive CharClass where
  | range (first last : Char)
  | digit
  | word
  | blank
  | nothing
  | union (left right : CharClass)
  | inter (left right : CharClass)
  | complement (inner : CharClass)
  | folded (inner : CharClass)
deriving DecidableEq, Repr, Inhabited

/-- The zeros of the decimal digits of common scripts; nine further digits follow
each of them. -/
def zeros : List Nat :=
  [0x30, 0x660, 0x6f0, 0x7c0, 0x966, 0x9e6, 0xa66, 0xae6, 0xb66, 0xbe6, 0xc66, 0xce6, 0xd66,
    0xde6, 0xe50, 0xed0, 0xf20, 0x1040, 0x1090, 0x17e0, 0x1810, 0x1946, 0x19d0, 0x1a80, 0x1a90,
    0x1b50, 0x1bb0, 0x1c40, 0x1c50, 0xa620, 0xa8d0, 0xa900, 0xa9d0, 0xa9f0, 0xaa50, 0xabf0,
    0xff10]

/-- Whether a character is a decimal digit of some script. -/
def isDigit (c : Char) : Bool :=
  zeros.any fun first => first ≤ c.toNat && c.toNat ≤ first + 9

/-- Ranges of letters, marks and connecting punctuation outside ASCII. -/
def letters : List (Nat × Nat) :=
  [(0xaa, 0xaa), (0xb5, 0xb5), (0xba, 0xba), (0xc0, 0xd6), (0xd8, 0xf6), (0xf8, 0x2c1),
    (0x2c6, 0x2d1), (0x2e0, 0x2e4), (0x2ec, 0x2ec), (0x2ee, 0x2ee), (0x300, 0x374),
    (0x376, 0x377), (0x37a, 0x37d), (0x37f, 0x37f), (0x386, 0x386), (0x388, 0x3ff),
    (0x400, 0x481), (0x483, 0x52f), (0x531, 0x556), (0x559, 0x559), (0x560, 0x588),
    (0x591, 0x5bd), (0x5bf, 0x5bf), (0x5c1, 0x5c2), (0x5c4, 0x5c5), (0x5c7, 0x5c7),
    (0x5d0, 0x5ea), (0x5ef, 0x5f2), (0x610, 0x61a), (0x620, 0x669), (0x66e, 0x6d3),
    (0x6d5, 0x6dc), (0x6df, 0x6e8), (0x6ea, 0x6fc), (0x6ff, 0x6ff), (0x710, 0x7f5),
    (0x800, 0x963), (0x966, 0x96f), (0x971, 0xdf3), (0xe01, 0xe3a), (0xe40, 0xe4e),
    (0xe50, 0xe59), (0xe81, 0xf00), (0xf18, 0xf19), (0xf20, 0xf29), (0xf35, 0xf39),
    (0xf3e, 0xfbc), (0x1000, 0x1049), (0x1050, 0x109d), (0x10a0, 0x10fa), (0x10fc, 0x135f),
    (0x1380, 0x138f), (0x13a0, 0x13fd), (0x1401, 0x166c), (0x166f, 0x167f), (0x1681, 0x169a),
    (0x16a0, 0x16ea), (0x16ee, 0x1734), (0x1740, 0x17d3), (0x17d7, 0x17d7), (0x17dc, 0x17e9),
    (0x180b, 0x180d), (0x180f, 0x193b), (0x1946, 0x1a1b), (0x1a20, 0x1a99), (0x1aa7, 0x1aa7),
    (0x1ab0, 0x1b4c), (0x1b50, 0x1b59), (0x1b6b, 0x1b73), (0x1b80, 0x1bf3), (0x1c00, 0x1c37),
    (0x1c40, 0x1c7d), (0x1c80, 0x1cbf), (0x1cd0, 0x1cd2), (0x1cd4, 0x1fbc), (0x1fbe, 0x1fbe),
    (0x1fc2, 0x1fcc), (0x1fd0, 0x1fdb), (0x1fe0, 0x1fec), (0x1ff2, 0x1ffc), (0x200c, 0x200d),
    (0x203f, 0x2040), (0x2054, 0x2054), (0x2071, 0x2071), (0x207f, 0x207f), (0x2090, 0x209c),
    (0x20d0, 0x20f0), (0x2102, 0x2102), (0x2107, 0x2107), (0x210a, 0x2113), (0x2115, 0x2115),
    (0x2119, 0x211d), (0x2124, 0x2124), (0x2126, 0x2126), (0x2128, 0x2128), (0x212a, 0x2139),
    (0x213c, 0x213f), (0x2145, 0x2149), (0x214e, 0x214e), (0x2160, 0x2188), (0x24b6, 0x24e9),
    (0x2c00, 0x2ce4), (0x2ceb, 0x2cf3), (0x2d00, 0x2dff), (0x2e2f, 0x2e2f), (0x3005, 0x3007),
    (0x3021, 0x302f), (0x3031, 0x3035), (0x3038, 0x303c), (0x3041, 0x3096), (0x3099, 0x309a),
    (0x309d, 0x309f), (0x30a1, 0x30fa), (0x30fc, 0x318e), (0x31a0, 0x31bf), (0x31f0, 0x31ff),
    (0x3400, 0x4dbf), (0x4e00, 0xa48c), (0xa4d0, 0xa4fd), (0xa500, 0xa60c), (0xa610, 0xa62b),
    (0xa640, 0xa672), (0xa674, 0xa67d), (0xa67f, 0xa6f1), (0xa717, 0xa71f), (0xa722, 0xa788),
    (0xa78b, 0xa827), (0xa840, 0xa873), (0xa880, 0xa8c5), (0xa8d0, 0xa8d9), (0xa8e0, 0xa8f7),
    (0xa8fb, 0xa8fb), (0xa8fd, 0xa92d), (0xa930, 0xa953), (0xa960, 0xa97c), (0xa980, 0xa9c0),
    (0xa9cf, 0xa9d9), (0xa9e0, 0xaa59), (0xaa60, 0xaadd), (0xaae0, 0xaaef), (0xaaf2, 0xab5a),
    (0xab5c, 0xab69), (0xab70, 0xabea), (0xabec, 0xabed), (0xabf0, 0xabf9), (0xac00, 0xd7a3),
    (0xd7b0, 0xd7fb), (0xf900, 0xfb28), (0xfb2a, 0xfbb1), (0xfbd3, 0xfd3d), (0xfd50, 0xfdfb),
    (0xfe00, 0xfe0f), (0xfe20, 0xfe2f), (0xfe33, 0xfe34), (0xfe4d, 0xfe4f), (0xfe70, 0xfefc),
    (0xff10, 0xff19), (0xff21, 0xff3a), (0xff3f, 0xff3f), (0xff41, 0xff5a), (0xff66, 0xffdc),
    (0x10000, 0x100fa), (0x10280, 0x1031f), (0x1032d, 0x1034a), (0x10400, 0x1049d),
    (0x1d400, 0x1d7ff), (0x1e900, 0x1e94b), (0x20000, 0x3ffff), (0xe0100, 0xe01ef)]

/-- Whether a character belongs to a word: letters, marks, digits and connecting
punctuation. -/
def isWord (c : Char) : Bool :=
  c.isAlphanum || c == '_' ||
    letters.any fun (first, last) => first ≤ c.toNat && c.toNat ≤ last

/-- The stretches of letters in which a fixed distance lies between the cases:
the first and the last of the small letters, and the distance to the capital
ones. -/
def caseShifts : List (Nat × Nat × Nat) :=
  [(0x61, 0x7a, 0x20), (0xe0, 0xf6, 0x20), (0xf8, 0xfe, 0x20), (0x3b1, 0x3c1, 0x20),
    (0x3c3, 0x3cb, 0x20), (0x430, 0x44f, 0x20), (0x450, 0x45f, 0x50), (0x561, 0x586, 0x30)]

/-- The stretches of letters in which each capital stands before its small letter,
the first capital having an even or an odd code. -/
def casePairs : List (Nat × Nat) :=
  [(0x100, 0x12f), (0x132, 0x137), (0x139, 0x148), (0x14a, 0x177), (0x179, 0x17e),
    (0x370, 0x373), (0x460, 0x481), (0x48a, 0x4bf), (0x4d0, 0x52f), (0x1e00, 0x1e95),
    (0x1ea0, 0x1eff)]

/-- Groups of letters that differ in case only, apart from the regular ones. -/
def caseGroups : List (List Nat) :=
  [[0x4b, 0x6b, 0x212a], [0x53, 0x73, 0x17f], [0xc5, 0xe5, 0x212b], [0xb5, 0x39c, 0x3bc],
    [0x3a3, 0x3c2, 0x3c3], [0x178, 0xff], [0xdf, 0x1e9e], [0x3a9, 0x3c9, 0x2126],
    [0x398, 0x3b8, 0x3d1, 0x3f4], [0x392, 0x3b2, 0x3d0], [0x395, 0x3b5, 0x3f5],
    [0x39a, 0x3ba, 0x3f0], [0x3a0, 0x3c0, 0x3d6], [0x3a1, 0x3c1, 0x3f1], [0x3a6, 0x3c6, 0x3d5],
    [0x1e60, 0x1e61, 0x1e9b], [0x386, 0x3ac], [0x388, 0x3ad], [0x389, 0x3ae], [0x38a, 0x3af],
    [0x38c, 0x3cc], [0x38e, 0x3cd], [0x38f, 0x3ce]]

/-- The codes of a letter in all cases. -/
def caseVariants (code : Nat) : List Nat :=
  let shifted := caseShifts.flatMap fun (first, last, distance) =>
    if first ≤ code && code ≤ last then [code - distance]
    else if first ≤ code + distance && code + distance ≤ last then [code + distance]
    else []
  let paired := casePairs.flatMap fun (first, last) =>
    if first ≤ code && code ≤ last then
      [if code % 2 = first % 2 then code + 1 else code - 1]
    else []
  let grouped := (caseGroups.filter (·.contains code)).flatten
  code :: shifted ++ paired ++ grouped

namespace CharClass

/-- The class of a single character. -/
def single (c : Char) : CharClass := .range c c

/-- Whether a class holds a character. -/
def contains : CharClass → Char → Bool
  | .range first last, c => first ≤ c && c ≤ last
  | .digit, c => Pattern.isDigit c
  | .word, c => Pattern.isWord c
  | .blank, c => Text.isBlank c
  | .nothing, _ => false
  | .union left right, c => left.contains c || right.contains c
  | .inter left right, c => left.contains c && right.contains c
  | .complement inner, c => !inner.contains c
  | .folded inner, c => (caseVariants c.toNat).any fun code => inner.contains (Char.ofNat code)

/-- What a class weighs: what the automaton that tells its characters apart takes
in memory, roughly. -/
def weight : CharClass → Nat
  | .range _ _ => 32
  | .digit => 3000
  | .word => 50000
  | .blank => 600
  | .nothing => 32
  | .union left right | .inter left right => left.weight + right.weight
  | .complement inner | .folded inner => 2 * inner.weight

/-- The union of several classes. -/
def unionOf : List CharClass → CharClass
  | [] => .nothing
  | [only] => only
  | first :: rest => .union first (unionOf rest)

end CharClass

end JavaInspect.Pattern
