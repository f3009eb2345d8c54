import DsProxy.Lib.Hex
import Mathlib.Data.Int.Notation

/-!
# JSON text

JSON values with integer numbers, the compact text a serializer writes for them, and a reader of
that text. Reading what was written gives the value back and leaves what followed it, which is what
every codec built on the two needs.
-/

mutual
inductive Json
  | null
  | bool (b : Bool)
  | num (n : ℤ)
  | str (text : String)
  | arr (items : Json.Items)
  | obj (members : Json.Members)

inductive Json.Items
  | nil
  | cons (head : Json) (tail : Json.Items)

inductive Json.Members
  | nil
  | cons (name : String) (value : Json) (tail : Json.Members)
end

namespace Json

/-! ### Writing -/

/-- The letter of a two-character escape. -/
def shortEscape (c : Char) : Option Char :=
  if c = '"' then some '"'
  else if c = '\\' then some '\\'
  else if c = Char.ofNat 8 then some 'b'
  else if c = Char.ofNat 12 then some 'f'
  else if c = '\n' then some 'n'
  else if c = '\r' then some 'r'
  else if c = '\t' then some 't'
  else none

/-- One character of a string: quotes, backslashes and control characters are escaped. -/
def escapeChar (c : Char) : List Char :=
  if let some letter := shortEscape c then ['\\', letter]
  else if c.toNat < 32 then
    ['\\', 'u', '0', '0', Hex.digit (c.toNat / 16), Hex.digit (c.toNat % 16)]
  else [c]

def writeString (text : String) : List Char := '"' :: text.toList.flatMap escapeChar ++ ['"']

def writeNum (n : ℤ) : List Char :=
  if n < 0 then '-' :: Nat.toDigits 10 n.natAbs else Nat.toDigits 10 n.natAbs

end Json

mutual
def Json.write : Json → List Char
  | .null => ['n', 'u', 'l', 'l']
  | .bool true => ['t', 'r', 'u', 'e']
  | .bool false => ['f', 'a', 'l', 's', 'e']
  | .num n => Json.writeNum n
  | .str text => Json.writeString text
  | .arr .nil => ['[', ']']
  | .arr (.cons head tail) => '[' :: (head.write ++ tail.write)
  | .obj .nil => ['{', '}']
  | .obj (.cons name value tail) =>
    '{' :: (Json.writeString name ++ ':' :: (value.write ++ tail.write))

/-- The items after the first, and the closing bracket. -/
def Json.Items.write : Json.Items → List Char
  | .nil => [']']
  | .cons head tail => ',' :: (head.write ++ tail.write)

def Json.Members.write : Json.Members → List Char
  | .nil => ['}']
  | .cons name value tail =>
    ',' :: (Json.writeString name ++ ':' :: (value.write ++ tail.write))
end

namespace Json

/-! ### Reading -/

def unescape : Char → Option Char
  | '"' => some '"'
  | '\\' => some '\\'
  | '/' => some '/'
  | 'b' => some (Char.ofNat 8)
  | 'f' => some (Char.ofNat 12)
  | 'n' => some '\n'
  | 'r' => some '\r'
  | 't' => some '\t'
  | _ => none

/-- The rest of a string, its opening quote already read. -/
def readChars : List Char → Option (List Char × List Char)
  | '"' :: rest => some ([], rest)
  | '\\' :: 'u' :: a :: b :: c :: d :: rest => do
    let code := ((← Hex.value a) * 16 + (← Hex.value b)) * 256 +
      ((← Hex.value c) * 16 + (← Hex.value d))
    let (text, rest) ← readChars rest
    return (Char.ofNat code :: text, rest)
  | '\\' :: c :: rest => do
    let c ← unescape c
    let (text, rest) ← readChars rest
    return (c :: text, rest)
  | c :: rest => do
    let (text, rest) ← readChars rest
    return (c :: text, rest)
  | [] => none

def readString : List Char → Option (String × List Char)
  | '"' :: rest => do
    let (text, rest) ← readChars rest
    return (String.ofList text, rest)
  | _ => none

def readNat (text : List Char) : Option (ℕ × List Char) :=
  if (text.takeWhile Char.isDigit).isEmpty then none
  else some (Nat.ofDigitChars 10 (text.takeWhile Char.isDigit) 0, text.dropWhile Char.isDigit)

def readNum : List Char → Option (ℤ × List Char)
  | '-' :: rest => do
    let (n, rest) ← readNat rest
    return (-n, rest)
  | text => do
    let (n, rest) ← readNat text
    return (n, rest)

/-- A string and the colon after it. -/
def readName (text : List Char) : Option (String × List Char) := do
  let (name, rest) ← readString text
  match rest with
  | ':' :: rest => return (name, rest)
  | _ => none

mutual
/-- A value; the fuel bounds the nesting. -/
def readValue : ℕ → List Char → Option (Json × List Char)
  | 0, _ => none
  | fuel + 1, text =>
    match readNum text with
    | some (n, rest) => some (.num n, rest)
    | none =>
      match text with
      | 'n' :: 'u' :: 'l' :: 'l' :: rest => some (.null, rest)
      | 't' :: 'r' :: 'u' :: 'e' :: rest => some (.bool true, rest)
      | 'f' :: 'a' :: 'l' :: 's' :: 'e' :: rest => some (.bool false, rest)
      | '"' :: rest => do
        let (text, rest) ← readChars rest
        return (.str (String.ofList text), rest)
      | '[' :: ']' :: rest => some (.arr .nil, rest)
      | '[' :: rest => do
        let (head, rest) ← readValue fuel rest
        let (tail, rest) ← readItems fuel rest
        return (.arr (.cons head tail), rest)
      | '{' :: '}' :: rest => some (.obj .nil, rest)
      | '{' :: rest => do
        let (name, rest) ← readName rest
        let (value, rest) ← readValue fuel rest
        let (tail, rest) ← readMembers fuel rest
        return (.obj (.cons name value tail), rest)
      | _ => none

def readItems : ℕ → List Char → Option (Items × List Char)
  | 0, _ => none
  | _ + 1, ']' :: rest => some (.nil, rest)
  | fuel + 1, ',' :: rest => do
    let (head, rest) ← readValue fuel rest
    let (tail, rest) ← readItems fuel rest
    return (.cons head tail, rest)
  | _ + 1, _ => none

def readMembers : ℕ → List Char → Option (Members × List Char)
  | 0, _ => none
  | _ + 1, '}' :: rest => some (.nil, rest)
  | fuel + 1, ',' :: rest => do
    let (name, rest) ← readName rest
    let (value, rest) ← readValue fuel rest
    let (tail, rest) ← readMembers fuel rest
    return (.cons name value tail, rest)
  | _ + 1, _ => none
end

def print (value : Json) : String := String.ofList value.write

def parse (text : String) : Option Json :=
  match readValue (text.toList.length + 1) text.toList with
  | some (value, []) => some value
  | _ => none

/-! ### Objects -/

def Members.ofList : List (String × Json) → Members
  | [] => .nil
  | (name, value) :: rest => .cons name value (ofList rest)

def object (members : List (String × Json)) : Json := .obj (.ofList members)

/-- The values under a name, in order; a reader decides what a repeated name means. -/
def Members.values (name : String) : Members → List Json
  | .nil => []
  | .cons other value tail => if other = name then value :: tail.values name else tail.values name

def values (name : String) : Json → List Json
  | .obj members => members.values name
  | _ => []

def Items.ofList : List Json → Items
  | [] => .nil
  | head :: tail => .cons head (ofList tail)

def Items.toList : Items → List Json
  | .nil => []
  | .cons head tail => head :: tail.toList

@[simp] theorem Items.toList_ofList (items : List Json) : (Items.ofList items).toList = items := by
  induction items with
  | nil => rfl
  | cons head tail ih => rw [ofList, toList, ih]

def items? : Json → Option (List Json)
  | .arr items => some items.toList
  | _ => none

def text? : Json → Option String
  | .str text => some text
  | _ => none

def int? : Json → Option ℤ
  | .num n => some n
  | _ => none

/-! ### Respelling

Some writers pass what they have written through a second escape, which respells characters inside
strings and leaves the ones that the first pass writes itself.
-/

/-- The characters the writer puts outside of strings or into an escape. -/
def isPlain (c : Char) : Bool :=
  c.isDigit || c.isLower || ['"', '\\', '{', '}', '[', ']', ',', ':', '-'].contains c

/-- A second escape that the reader undoes together with the first. -/
structure Respells (escape : Char → List Char) : Prop where
  plain : ∀ c, isPlain c = true → escape c = [c]
  read : ∀ c, isPlain c = false → ∀ more text rest, readChars more = some (text, rest) →
    readChars (escape c ++ more) = some (c :: text, rest)

theorem readChars_cons {c : Char} (hquote : c ≠ '"') (hslash : c ≠ '\\')
    {more text rest : List Char} (h : readChars more = some (text, rest)) :
    readChars (c :: more) = some (c :: text, rest) := by
  simp [readChars, hslash, h]

theorem readChars_unicode {a b c d : Char} {x y z t : ℕ} (ha : Hex.value a = some x)
    (hb : Hex.value b = some y) (hc : Hex.value c = some z) (hd : Hex.value d = some t)
    {more text rest : List Char} (h : readChars more = some (text, rest)) :
    readChars ('\\' :: 'u' :: a :: b :: c :: d :: more) =
      some (Char.ofNat ((x * 16 + y) * 256 + (z * 16 + t)) :: text, rest) := by
  simp [readChars, ha, hb, hc, hd, h]

theorem respells_singleton : Respells fun c => [c] where
  plain _ _ := rfl
  read c hc more text rest h := by
    refine readChars_cons ?_ ?_ h
    · intro heq
      subst heq
      cases hc
    · intro heq
      subst heq
      cases hc

section Respelling

variable {escape : Char → List Char}

theorem Respells.ne_nil (h : Respells escape) (c : Char) : escape c ≠ [] := by
  intro hnil
  cases hc : isPlain c with
  | true =>
      rw [h.plain c hc] at hnil
      cases hnil
  | false =>
      have hread := h.read c hc ['"'] [] [] rfl
      rw [hnil] at hread
      cases hread

theorem Respells.flatMap_cons (h : Respells escape) {c : Char} (hc : isPlain c = true)
    (text : List Char) : (c :: text).flatMap escape = c :: text.flatMap escape := by
  rw [List.flatMap_cons, h.plain c hc, List.singleton_append]

theorem Respells.flatMap_plain (h : Respells escape) {text : List Char}
    (htext : text.all isPlain = true) : text.flatMap escape = text := by
  induction text with
  | nil => rfl
  | cons c text ih =>
      obtain ⟨hc, hrest⟩ := Bool.and_eq_true_iff.mp htext
      rw [h.flatMap_cons hc, ih hrest]

theorem Respells.length_le (h : Respells escape) (text : List Char) :
    text.length ≤ (text.flatMap escape).length := by
  induction text with
  | nil => exact Nat.le_refl _
  | cons c text ih =>
      have hpos := List.length_pos_iff.mpr (h.ne_nil c)
      rw [List.flatMap_cons, List.length_append, List.length_cons]
      omega

/-! ### Reading what was written -/

theorem unescape_of_shortEscape {c letter : Char} (h : shortEscape c = some letter) :
    unescape letter = some c ∧ letter ≠ 'u' ∧ isPlain letter = true := by
  unfold shortEscape at h
  split_ifs at h <;> cases h <;> subst c <;> decide

theorem isPlain_digit : ∀ n < 16, isPlain (Hex.digit n) = true := by decide

theorem Respells.readChars_escape (h : Respells escape) (text rest : List Char) :
    readChars ((text.flatMap escapeChar).flatMap escape ++ '"' :: rest) = some (text, rest) := by
  induction text with
  | nil => rfl
  | cons c text ih =>
      rw [List.flatMap_cons, List.flatMap_append, List.append_assoc, escapeChar]
      cases hshort : shortEscape c with
      | some letter =>
          obtain ⟨hletter, hu, hplain⟩ := unescape_of_shortEscape hshort
          have hsame : ['\\', letter].flatMap escape = ['\\', letter] :=
            h.flatMap_plain (by
              simp only [List.all_cons, hplain]
              rfl)
          simp [hsame, readChars, hletter, hu, ih]
      | none =>
          split_ifs with hcontrol
          · have hlow : c.toNat / 16 < 16 ∧ c.toNat % 16 < 16 := by omega
            have hsame : ['\\', 'u', '0', '0', Hex.digit (c.toNat / 16),
                Hex.digit (c.toNat % 16)].flatMap escape =
                ['\\', 'u', '0', '0', Hex.digit (c.toNat / 16), Hex.digit (c.toNat % 16)] :=
              h.flatMap_plain (by
                simp only [List.all_cons, isPlain_digit _ hlow.1, isPlain_digit _ hlow.2]
                rfl)
            have hzero : Hex.value '0' = some 0 := rfl
            have hread := readChars_unicode hzero hzero (Hex.value_digit _ hlow.1)
              (Hex.value_digit _ hlow.2) ih
            have hcode : (0 * 16 + 0) * 256 + (c.toNat / 16 * 16 + c.toNat % 16) = c.toNat := by
              omega
            rw [hcode, Char.ofNat_toNat] at hread
            rw [hsame]
            exact hread
          · have hquote : c ≠ '"' := by
              intro heq
              subst heq
              cases hshort
            have hslash : c ≠ '\\' := by
              intro heq
              subst heq
              cases hshort
            rw [List.flatMap_cons, List.flatMap_nil, List.append_nil]
            cases hc : isPlain c with
            | true =>
                rw [h.plain c hc]
                exact readChars_cons hquote hslash ih
            | false => exact h.read c hc _ _ _ ih

theorem Respells.writeString (h : Respells escape) (text : String) :
    (Json.writeString text).flatMap escape =
      '"' :: ((text.toList.flatMap escapeChar).flatMap escape ++ ['"']) := by
  rw [Json.writeString, List.cons_append, h.flatMap_cons rfl, List.flatMap_append,
    h.flatMap_cons rfl, List.flatMap_nil]

theorem Respells.readString_write (h : Respells escape) (text : String) (rest : List Char) :
    readString ((Json.writeString text).flatMap escape ++ rest) = some (text, rest) := by
  rw [h.writeString, List.cons_append, List.append_assoc, List.singleton_append]
  simp [readString, h.readChars_escape]

theorem takeWhile_digits {digits rest : List Char} (hdigits : ∀ c ∈ digits, c.isDigit = true)
    (hrest : ∀ c ∈ rest.head?, c.isDigit = false) :
    (digits ++ rest).takeWhile Char.isDigit = digits ∧
      (digits ++ rest).dropWhile Char.isDigit = rest := by
  induction digits with
  | nil =>
      cases rest with
      | nil => exact ⟨rfl, rfl⟩
      | cons c rest => simp [hrest c rfl]
  | cons c digits ih =>
      obtain ⟨htake, hdrop⟩ := ih fun d hd => hdigits d (List.mem_cons_of_mem c hd)
      simp [hdigits c List.mem_cons_self, htake, hdrop]

theorem isDigit_of_mem_toDigits (n : ℕ) : ∀ c ∈ Nat.toDigits 10 n, c.isDigit = true := fun _ hc =>
  Nat.isDigit_of_mem_toDigits (by decide) (by decide) hc

theorem readNat_write (n : ℕ) {rest : List Char} (hrest : ∀ c ∈ rest.head?, c.isDigit = false) :
    readNat (Nat.toDigits 10 n ++ rest) = some (n, rest) := by
  obtain ⟨htake, hdrop⟩ := takeWhile_digits (isDigit_of_mem_toDigits n) hrest
  simp [readNat, htake, hdrop]

theorem readNum_write (n : ℤ) {rest : List Char} (hrest : ∀ c ∈ rest.head?, c.isDigit = false) :
    readNum (writeNum n ++ rest) = some (n, rest) := by
  have hread := readNat_write n.natAbs hrest
  unfold writeNum
  split_ifs with hneg
  · have hvalue : -(n.natAbs : ℤ) = n := by omega
    generalize n.natAbs = k at hread hvalue ⊢
    simp [readNum, hread, hvalue]
  · have hvalue : (n.natAbs : ℤ) = n := by omega
    generalize n.natAbs = k at hread hvalue ⊢
    obtain ⟨c, digits, hcons⟩ := List.exists_cons_of_ne_nil (Nat.toDigits_ne_nil (b := 10)
      (n := k))
    have hdigit : c.isDigit = true := isDigit_of_mem_toDigits _ c (hcons ▸ List.mem_cons_self)
    have hminus : c ≠ '-' := by
      intro heq
      subst heq
      cases hdigit
    rw [hcons, List.cons_append] at hread ⊢
    simp [readNum, hminus, hread, hvalue]

theorem isPlain_writeNum (n : ℤ) : (writeNum n).all isPlain = true := by
  refine List.all_eq_true.mpr fun c hc => ?_
  unfold writeNum at hc
  split_ifs at hc
  · rcases List.mem_cons.mp hc with rfl | hc
    · rfl
    · simp [isPlain, isDigit_of_mem_toDigits _ c hc]
  · simp [isPlain, isDigit_of_mem_toDigits _ c hc]

theorem readNum_of_not_digit {c : Char} (hdigit : c.isDigit = false) (hminus : c ≠ '-')
    (rest : List Char) : readNum (c :: rest) = none := by
  simp [readNum, readNat, hdigit, hminus]

theorem readValue_close (fuel : ℕ) (rest : List Char) : readValue fuel (']' :: rest) = none := by
  cases fuel <;> simp [readValue, readNum_of_not_digit]

theorem Respells.readName_write (h : Respells escape) (name : String) (rest : List Char) :
    readName ((Json.writeString name).flatMap escape ++ ':' :: rest) = some (name, rest) := by
  simp [readName, h.readString_write]

theorem Respells.head_items (h : Respells escape) (items : Items) (rest : List Char) :
    ∀ c ∈ (items.write.flatMap escape ++ rest).head?, c.isDigit = false := by
  cases items with
  | nil => simp [Items.write, h.plain ']' rfl]
  | cons head tail => simp [Items.write, h.plain ',' rfl]

theorem Respells.head_members (h : Respells escape) (members : Members) (rest : List Char) :
    ∀ c ∈ (members.write.flatMap escape ++ rest).head?, c.isDigit = false := by
  cases members with
  | nil => simp [Members.write, h.plain '}' rfl]
  | cons name value tail => simp [Members.write, h.plain ',' rfl]

end Respelling

end Json

section Reading

variable {escape : Char → List Char}

mutual
theorem Json.Respells.readValue_write (h : Respells escape) (v : Json) (fuel : ℕ)
    (rest : List Char) (hfuel : v.write.length < fuel)
    (hrest : ∀ c ∈ rest.head?, c.isDigit = false) :
    Json.readValue fuel (v.write.flatMap escape ++ rest) = some (v, rest) := by
  cases fuel with
  | zero => cases hfuel
  | succ fuel =>
  match v with
  | .null =>
      rw [Json.write, h.flatMap_plain rfl]
      simp [Json.readValue, Json.readNum_of_not_digit]
  | .bool true =>
      rw [Json.write, h.flatMap_plain rfl]
      simp [Json.readValue, Json.readNum_of_not_digit]
  | .bool false =>
      rw [Json.write, h.flatMap_plain rfl]
      simp [Json.readValue, Json.readNum_of_not_digit]
  | .num n =>
      rw [Json.write, h.flatMap_plain (Json.isPlain_writeNum n)]
      simp [Json.readValue, Json.readNum_write n hrest]
  | .str text =>
      have hread := h.readChars_escape text.toList rest
      rw [Json.write, h.writeString]
      simp [Json.readValue, Json.readNum_of_not_digit, hread]
  | .arr .nil =>
      rw [Json.write, h.flatMap_plain rfl]
      simp [Json.readValue, Json.readNum_of_not_digit]
  | .arr (.cons head tail) =>
      simp only [Json.write, List.length_cons, List.length_append] at hfuel
      have hhead := h.readValue_write head fuel (tail.write.flatMap escape ++ rest) (by omega)
        (h.head_items tail rest)
      have htail := h.readItems_write tail fuel rest (by omega)
      -- the reader must not take the first item for the end of the array
      have hopen : ∀ more, head.write.flatMap escape ++ (tail.write.flatMap escape ++ rest) ≠
          ']' :: more := fun more hmore => by
        rw [hmore, Json.readValue_close] at hhead
        cases hhead
      rw [Json.write, h.flatMap_cons rfl, List.flatMap_append]
      simp [Json.readValue, Json.readNum_of_not_digit, hhead, htail]
  | .obj .nil =>
      rw [Json.write, h.flatMap_plain rfl]
      simp [Json.readValue, Json.readNum_of_not_digit]
  | .obj (.cons name value tail) =>
      simp only [Json.write, List.length_cons, List.length_append] at hfuel
      have hvalue := h.readValue_write value fuel (tail.write.flatMap escape ++ rest)
        (by omega) (h.head_members tail rest)
      have htail := h.readMembers_write tail fuel rest (by omega)
      have hname := h.readName_write name
        (value.write.flatMap escape ++ (tail.write.flatMap escape ++ rest))
      rw [Json.write, h.flatMap_cons rfl, List.flatMap_append, h.flatMap_cons rfl,
        List.flatMap_append]
      have hquote : ∀ more, (Json.writeString name).flatMap escape ++ ':' ::
          (value.write.flatMap escape ++ (tail.write.flatMap escape ++ rest)) ≠ '}' :: more := by
        intro more hmore
        rw [h.writeString] at hmore
        cases hmore
      simp [Json.readValue, Json.readNum_of_not_digit, hname, hvalue, htail]

theorem Json.Respells.readItems_write (h : Respells escape) (items : Json.Items) (fuel : ℕ)
    (rest : List Char) (hfuel : items.write.length < fuel) :
    Json.readItems fuel (items.write.flatMap escape ++ rest) = some (items, rest) := by
  cases fuel with
  | zero => cases hfuel
  | succ fuel =>
  match items with
  | .nil =>
      rw [Json.Items.write, h.flatMap_plain rfl]
      simp [Json.readItems]
  | .cons head tail =>
      simp only [Json.Items.write, List.length_cons, List.length_append] at hfuel
      have hhead := h.readValue_write head fuel (tail.write.flatMap escape ++ rest) (by omega)
        (h.head_items tail rest)
      have htail := h.readItems_write tail fuel rest (by omega)
      rw [Json.Items.write, h.flatMap_cons rfl, List.flatMap_append]
      simp [Json.readItems, hhead, htail]

theorem Json.Respells.readMembers_write (h : Respells escape) (members : Json.Members) (fuel : ℕ)
    (rest : List Char) (hfuel : members.write.length < fuel) :
    Json.readMembers fuel (members.write.flatMap escape ++ rest) = some (members, rest) := by
  cases fuel with
  | zero => cases hfuel
  | succ fuel =>
  match members with
  | .nil =>
      rw [Json.Members.write, h.flatMap_plain rfl]
      simp [Json.readMembers]
  | .cons name value tail =>
      simp only [Json.Members.write, List.length_cons, List.length_append] at hfuel
      have hvalue := h.readValue_write value fuel (tail.write.flatMap escape ++ rest)
        (by omega) (h.head_members tail rest)
      have htail := h.readMembers_write tail fuel rest (by omega)
      have hname := h.readName_write name
        (value.write.flatMap escape ++ (tail.write.flatMap escape ++ rest))
      rw [Json.Members.write, h.flatMap_cons rfl, List.flatMap_append, h.flatMap_cons rfl,
        List.flatMap_append]
      simp [Json.readMembers, hname, hvalue, htail]
end

/-- Reading back a respelled text gives the value it was written for. -/
theorem Json.Respells.parse_write (h : Respells escape) (v : Json) :
    Json.parse (String.ofList (v.write.flatMap escape)) = some v := by
  have hread := h.readValue_write v ((v.write.flatMap escape).length + 1) []
    (Nat.lt_succ_of_le (h.length_le v.write)) (by simp)
  rw [List.append_nil] at hread
  rw [Json.parse, String.toList_ofList, hread]

end Reading

/-- Reading back a printed value gives the value. -/
theorem Json.parse_print (v : Json) : Json.parse v.print = some v := by
  have hread := Json.respells_singleton.parse_write v
  rwa [List.flatMap_singleton'] at hread

/-! ### Printable text -/

namespace Json

theorem printable_of_isPlain {c : Char} (h : isPlain c = true) : 32 ≤ c.toNat := by
  simp only [isPlain, Bool.or_eq_true, List.contains_iff_mem, List.mem_cons, List.not_mem_nil,
    or_false] at h
  rcases h with (hdigit | hlower) | hmark
  · obtain ⟨hlow, -⟩ := Bool.and_eq_true_iff.mp hdigit
    have hnat : 48 ≤ c.toNat := of_decide_eq_true hlow
    omega
  · obtain ⟨hlow, -⟩ := Bool.and_eq_true_iff.mp hlower
    have hnat : 97 ≤ c.toNat := of_decide_eq_true hlow
    omega
  · rcases hmark with rfl | rfl | rfl | rfl | rfl | rfl | rfl | rfl | rfl <;> decide

theorem printable_of_all {text : List Char} (h : text.all isPlain = true) :
    ∀ c ∈ text, 32 ≤ c.toNat := fun c hc =>
  printable_of_isPlain (List.all_eq_true.mp h c hc)

theorem printable_escapeChar (c : Char) : ∀ d ∈ escapeChar c, 32 ≤ d.toNat := by
  intro d hd
  unfold escapeChar at hd
  cases hshort : shortEscape c with
  | some letter =>
      obtain ⟨-, -, hplain⟩ := unescape_of_shortEscape hshort
      rw [hshort] at hd
      rcases List.mem_cons.mp hd with rfl | hd
      · decide
      · rw [List.mem_singleton.mp hd]
        exact printable_of_isPlain hplain
  | none =>
      rw [hshort] at hd
      dsimp only at hd
      split_ifs at hd with hcontrol
      · refine printable_of_all ?_ d hd
        simp only [List.all_cons, isPlain_digit (c.toNat / 16) (by omega),
          isPlain_digit (c.toNat % 16) (by omega)]
        rfl
      · rw [List.mem_singleton.mp hd]
        omega

theorem printable_writeString (text : String) : ∀ c ∈ writeString text, 32 ≤ c.toNat := by
  intro c hc
  rw [writeString, List.cons_append, List.mem_cons, List.mem_append, List.mem_singleton] at hc
  rcases hc with rfl | hc | rfl
  · decide
  · obtain ⟨d, -, hescape⟩ := List.mem_flatMap.mp hc
    exact printable_escapeChar d c hescape
  · decide

end Json

mutual
/-- A written value has no line breaks, and no other control characters either. -/
theorem Json.printable_write (v : Json) : ∀ c ∈ v.write, 32 ≤ c.toNat := by
  match v with
  | .null => exact printable_of_all rfl
  | .bool true => exact printable_of_all rfl
  | .bool false => exact printable_of_all rfl
  | .num n => exact printable_of_all (isPlain_writeNum n)
  | .str text => exact printable_writeString text
  | .arr .nil => exact printable_of_all rfl
  | .arr (.cons head tail) =>
      simp only [Json.write, List.forall_mem_cons, List.forall_mem_append]
      exact ⟨by decide, head.printable_write, tail.printable_write⟩
  | .obj .nil => exact printable_of_all rfl
  | .obj (.cons name value tail) =>
      simp only [Json.write, List.forall_mem_cons, List.forall_mem_append]
      exact ⟨by decide, printable_writeString name, by decide, value.printable_write,
        tail.printable_write⟩

theorem Json.Items.printable_write (items : Json.Items) : ∀ c ∈ items.write, 32 ≤ c.toNat := by
  match items with
  | .nil => exact printable_of_all rfl
  | .cons head tail =>
      simp only [Json.Items.write, List.forall_mem_cons, List.forall_mem_append]
      exact ⟨by decide, head.printable_write, tail.printable_write⟩

theorem Json.Members.printable_write (members : Json.Members) :
    ∀ c ∈ members.write, 32 ≤ c.toNat := by
  match members with
  | .nil => exact printable_of_all rfl
  | .cons name value tail =>
      simp only [Json.Members.write, List.forall_mem_cons, List.forall_mem_append]
      exact ⟨by decide, printable_writeString name, by decide, value.printable_write,
        tail.printable_write⟩
end

theorem Json.Members.write_closed (members : Json.Members) :
    ∃ inner, members.write = inner ++ ['}'] := by
  match members with
  | .nil => exact ⟨[], rfl⟩
  | .cons name value tail =>
      obtain ⟨inner, htail⟩ := tail.write_closed
      refine ⟨',' :: (writeString name ++ ':' :: (value.write ++ inner)), ?_⟩
      simp only [Json.Members.write, htail, List.cons_append, List.append_assoc]

theorem Json.write_obj (members : Json.Members) :
    ∃ inner, (Json.obj members).write = '{' :: (inner ++ ['}']) := by
  cases members with
  | nil => exact ⟨[], rfl⟩
  | cons name value tail =>
      obtain ⟨inner, htail⟩ := tail.write_closed
      refine ⟨writeString name ++ ':' :: (value.write ++ inner), ?_⟩
      simp only [Json.write, htail, List.cons_append, List.append_assoc]
