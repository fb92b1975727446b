import Mathlib.Algebra.GroupWithZero.Nat
import Mathlib.Data.List.DropRight

/-! `packages/shared/src/url.ts`.  The `URL` constructor of the platform is a parameter: `none`
stands for its `TypeError`. -/

namespace LinkBulker.Shared

/-- `WhiteSpace` and `LineTerminator` of ECMAScript, the characters `trim` removes. -/
def isWhiteSpace (c : Char) : Bool :=
  c.toNat ∈ [0x9, 0xA, 0xB, 0xC, 0xD, 0x20, 0xA0, 0x1680, 0x2028, 0x2029, 0x202F, 0x205F, 0x3000,
    0xFEFF] || (0x2000 ≤ c.toNat && c.toNat ≤ 0x200A)

def trimChars (cs : List Char) : List Char := (cs.dropWhile isWhiteSpace).rdropWhile isWhiteSpace

def trim (s : String) : String := String.ofList (trimChars s.toList)

/-- `toLowerCase` of ASCII texts, such as the host names of URLs; other letters stay as they are. -/
def toLowerCase (s : String) : String := String.ofList (s.toList.map Char.toLower)

def utf16Units (c : Char) : ℕ := if c.toNat < 0x10000 then 1 else 2

/-- `length` of ECMAScript, which counts UTF-16 code units. -/
def utf16Length (s : String) : ℕ := (s.toList.map utf16Units).sum

/-- `slice(0, n)`.  Of a surrogate pair that the cut would split nothing is kept. -/
def sliceUnits (n : ℕ) : List Char → List Char
  | [] => []
  | c :: cs => if utf16Units c ≤ n then c :: sliceUnits (n - utf16Units c) cs else []

structure URL where
  protocol : String
  hostname : String
  deriving DecidableEq

abbrev UrlParser := String → Option URL

def normalizeHost (host : String) : String :=
  let h := (toLowerCase (trim host)).toList.takeWhile (· ≠ ':')
  if "www.".toList.isPrefixOf h then String.ofList (h.drop 4) else String.ofList h

def hostOfCandidate (newURL : UrlParser) (candidate : String) : Option String :=
  match newURL candidate with
  | some u => if u.hostname = "" then none else some (normalizeHost u.hostname)
  | none => none

def extractAcceptorHost (newURL : UrlParser) (input : String) : Except String String :=
  let raw := trim input
  if raw = "" then .error "Acceptor is empty"
  else match [raw, "https://" ++ raw].findSome? (hostOfCandidate newURL) with
    | some host => .ok host
    | none => .error ("Cannot parse acceptor as URL: \"" ++ input ++ "\"")

def safeHost (newURL : UrlParser) (url : String) : Option String :=
  (newURL url).map fun u => normalizeHost u.hostname

def isValidDonorUrl (newURL : UrlParser) (input : String) : Bool :=
  match newURL input with
  | some u => u.protocol = "http:" || u.protocol = "https:"
  | none => false

theorem trimChars_trimChars (cs : List Char) : trimChars (trimChars cs) = trimChars cs := by
  have hdrop : (trimChars cs).dropWhile isWhiteSpace = trimChars cs := by
    rw [List.dropWhile_eq_self_iff]
    intro hpos
    have hpre : trimChars cs <+: cs.dropWhile isWhiteSpace := List.rdropWhile_prefix isWhiteSpace _
    rw [hpre.getElem hpos]
    exact List.dropWhile_get_zero_not _ _ (Nat.lt_of_lt_of_le hpos hpre.length_le)
  rw [trimChars, hdrop]
  exact List.rdropWhile_idempotent ..

theorem trimChars_of_ends {c d : Char} {cs : List Char} (hc : isWhiteSpace c = false)
    (hd : isWhiteSpace d = false) : trimChars (c :: cs ++ [d]) = c :: cs ++ [d] := by
  rw [trimChars, List.cons_append, List.dropWhile_cons_of_neg (by simp [hc]), ← List.cons_append,
    List.rdropWhile_concat_neg _ _ _ (by simp [hd])]

theorem isWhiteSpace_of_isDigit {c : Char} (h : c.isDigit) : isWhiteSpace c = false := by
  have hdigit : 48 ≤ c.toNat ∧ c.toNat ≤ 57 := Char.isDigit_iff_toNat.mp h
  simp [isWhiteSpace]
  omega

@[simp] theorem trim_empty : trim "" = "" := rfl

@[simp] theorem trim_trim (s : String) : trim (trim s) = trim s := by
  simp [trim, trimChars_trimChars]

end LinkBulker.Shared
