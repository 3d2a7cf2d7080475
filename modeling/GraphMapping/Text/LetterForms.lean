/-!
# Forms of the Latin letters

A Latin letter may be written in many forms: wide, raised, circled, in the styles of mathematics, as a
numeral, joined to its neighbours.  Names that are compared regardless of form are first brought into
small plain letters, and characters that show nothing are left out.
-/

namespace GraphMapping.Text

/-- A character that shows nothing and that names may therefore leave out. -/
def isIgnorable (c : Char) : Bool :=
  let n := c.toNat
  n == 0xAD || n == 0x34F || n == 0x61C || (0x115F ≤ n && n ≤ 0x1160) || (0x17B4 ≤ n && n ≤ 0x17B5) ||
    (0x180B ≤ n && n ≤ 0x180F) || (0x200B ≤ n && n ≤ 0x200F) || (0x202A ≤ n && n ≤ 0x202E) ||
    (0x2060 ≤ n && n ≤ 0x206F) || n == 0x3164 || (0xFE00 ≤ n && n ≤ 0xFE0F) || n == 0xFEFF ||
    n == 0xFFA0 || (0xFFF0 ≤ n && n ≤ 0xFFF8) || (0x1BCA0 ≤ n && n ≤ 0x1BCA3) ||
    (0x1D173 ≤ n && n ≤ 0x1D17A) || (0xE0000 ≤ n && n ≤ 0xE0FFF)

/-- Where alphabets of a form of their own begin, and how many follow one another there. -/
def alphabets : List (Nat × Nat) :=
  [(0x24B6, 2), (0xFF21, 1), (0xFF41, 1), (0x1CCD6, 1), (0x1D400, 26), (0x1F130, 1)]

/-- Small plain letters, each with the characters that stand for them outside the alphabets. -/
def letterForms : List (String × String) :=
  [("a", "ªᴬᵃₐ"), ("b", "ᴮᵇℬ"), ("c", "ᶜℂℭⅭⅽꟲ🄫"), ("d", "ᴰᵈⅅⅆⅮⅾ"), ("e", "ᴱᵉₑℯℰⅇ"),
    ("f", "ᶠℱꟳ"), ("g", "ᴳᵍℊ"), ("h", "ʰᴴₕℋℌℍℎ"), ("i", "ᴵᵢⁱℐℑℹⅈⅠⅰ"), ("j", "ʲᴶⅉⱼ"),
    ("k", "ᴷᵏₖK"), ("l", "ˡᴸₗℒℓⅬⅼ"), ("m", "ᴹᵐₘℳⅯⅿ"), ("n", "ᴺⁿₙℕ"), ("o", "ºᴼᵒₒℴ"),
    ("p", "ᴾᵖₚℙ"), ("q", "ℚꟴ𐞥"), ("r", "ʳᴿᵣℛℜℝ🄬"), ("s", "ſˢₛ꟱"), ("t", "ᵀᵗₜ"), ("u", "ᵁᵘᵤ"),
    ("v", "ᵛᵥⅤⅴⱽ"), ("w", "ʷᵂ"), ("x", "ˣₓⅩⅹ"), ("y", "ʸ"), ("z", "ᶻℤℨ"), ("au", "㍳"),
    ("bar", "㍴"), ("bq", "㏃"), ("cal", "㎈"), ("cc", "㏄"), ("cd", "㏅🄭"), ("cm", "㎝"),
    ("da", "㍲"), ("db", "㏈"), ("dj", "🆐"), ("dl", "㎗"), ("dm", "㍷"), ("dz", "Ǳǲǳ"),
    ("erg", "㋍"), ("ev", "㋎"), ("fax", "℻"), ("ff", "ﬀ"), ("ffi", "ﬃ"), ("ffl", "ﬄ"),
    ("fi", "ﬁ"), ("fl", "ﬂ"), ("fm", "㎙"), ("gal", "㏿"), ("gb", "㎇"), ("ghz", "㎓"),
    ("gpa", "㎬"), ("gy", "㏉"), ("ha", "㏊"), ("hg", "㋌"), ("hp", "㏋"), ("hpa", "㍱"), ("hv", "🅊"),
    ("hz", "㎐"), ("ii", "Ⅱⅱ"), ("iii", "Ⅲⅲ"), ("ij", "Ĳĳ"), ("in", "㏌"), ("iu", "㍺"),
    ("iv", "Ⅳⅳ"), ("ix", "Ⅸⅸ"), ("ka", "㎄"), ("kb", "㎅"), ("kcal", "㎉"), ("kg", "㎏"),
    ("khz", "㎑"), ("kk", "㏍"), ("kl", "㎘"), ("km", "㎞㏎"), ("kpa", "㎪"), ("kt", "㏏"),
    ("kv", "㎸"), ("kw", "㎾"), ("lj", "Ǉǈǉ"), ("lm", "㏐"), ("ln", "㏑"), ("log", "㏒"),
    ("ltd", "㋏"), ("lx", "㏓"), ("ma", "㎃"), ("mb", "㎆㏔"), ("mc", "🅪"), ("md", "🅫"), ("mg", "㎎"),
    ("mhz", "㎒"), ("mil", "㏕"), ("ml", "㎖"), ("mm", "㎜"), ("mol", "㏖"), ("mpa", "㎫"),
    ("mr", "🅬"), ("ms", "㎳"), ("mv", "㎷㎹🅋"), ("mw", "㎽㎿"), ("na", "㎁"), ("nf", "㎋"),
    ("nj", "Ǌǋǌ"), ("nm", "㎚"), ("no", "№"), ("ns", "㎱"), ("nv", "㎵"), ("nw", "㎻"), ("ov", "㍵"),
    ("pa", "㎀㎩"), ("pc", "㍶"), ("pf", "㎊"), ("ph", "㏗"), ("ppm", "㏙"), ("ppv", "🅎"),
    ("pr", "㏚"), ("ps", "㎰"), ("pte", "㉐"), ("pv", "㎴"), ("pw", "㎺"), ("rad", "㎭"), ("rs", "₨"),
    ("sd", "🅌"), ("sm", "℠"), ("sr", "㏛"), ("ss", "🅍"), ("st", "ﬅﬆ"), ("sv", "㏜"),
    ("tel", "℡"), ("thz", "㎔"), ("tm", "™"), ("vi", "Ⅵⅵ"), ("vii", "Ⅶⅶ"), ("viii", "Ⅷⅷ"),
    ("wb", "㏝"), ("wc", "🅏"), ("wz", "🄮"), ("xi", "Ⅺⅺ"), ("xii", "Ⅻⅻ")]

/-- The plain letters that a character stands for, and itself if it stands for none. -/
def plainLetters (c : Char) : List Char :=
  let n := c.toNat
  if isIgnorable c then []
  else
    match alphabets.find? fun (first, count) => first ≤ n && n < first + 26 * count with
    | some (first, _) => [Char.ofNat ('a'.toNat + (n - first) % 26)]
    | none =>
        match letterForms.find? fun (_, forms) => forms.toList.contains c with
        | some (letters, _) => letters.toList
        | none => [c.toLower]

/-- A text in small plain letters, as far as it consists of letters. -/
def inPlainLetters (cs : List Char) : List Char :=
  cs.flatMap plainLetters

end GraphMapping.Text
