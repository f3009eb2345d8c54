import DsProxy.BalancePayment.Ed25519
import Mathlib.Logic.Equiv.Basic

/-!
# Laws of the curve calls

What the signature check relies on from the curve crate: points are closed under the two operations,
and subtraction cancels on computed points. The group of the base point under any relabelling of its
encodings satisfies the laws, so they are consistent whatever bytes the real encodings are; the
relabelling at the end gives the points of two real signatures their real bytes.
-/

namespace DsProxy.BalancePayment

structure Crypto.Lawful (C : Crypto) : Prop where
  base : C.validateEdwards edwardsBasePoint = true
  multiply {scalar point} (h : C.validateEdwards point = true) :
    ∃ product, C.multiplyEdwards scalar point = some product ∧ C.validateEdwards product = true
  subtract {p q} (hp : C.validateEdwards p = true) (hq : C.validateEdwards q = true) :
    ∃ r, C.subtractEdwards p q = some r ∧ C.validateEdwards r = true
  subtract_cancel {p q q' r s s' a a'} (hq : C.multiplyEdwards s a = some q)
    (hq' : C.multiplyEdwards s' a' = some q') (h : C.subtractEdwards p q = some r)
    (h' : C.subtractEdwards p q' = some r) : q = q'

/-! ### The group of the base point -/

namespace Cyclic

variable (relabel : Equiv.Perm (Fin (256 ^ 32)))

theorem basepointOrder_pos : 0 < basepointOrder := by simp [basepointOrder]

theorem mod_lt_width (k : ℕ) : k % basepointOrder < 256 ^ 32 :=
  (Nat.mod_lt k basepointOrder_pos).trans (by norm_num [basepointOrder])

/-- The point at a multiple of the base point. -/
def encode (k : ℕ) : Key :=
  Bytes.toLE 32 (relabel ⟨k % basepointOrder, mod_lt_width k⟩).val

/-- Which multiple of the base point a point is, before the check that it is one. -/
def index (point : Key) : ℕ :=
  (relabel.symm ⟨Bytes.ofLE point.toList, by simpa using Bytes.ofLE_lt point.toList⟩).val

def decode (point : Key) : Option ℕ :=
  if index relabel point < basepointOrder then some (index relabel point) else none

theorem index_encode (k : ℕ) : index relabel (encode relabel k) = k % basepointOrder := by
  simp [index, encode, Bytes.ofLE_toLE_of_lt (relabel ⟨k % basepointOrder, _⟩).isLt]

theorem decode_encode (k : ℕ) : decode relabel (encode relabel k) = some (k % basepointOrder) := by
  rw [decode, index_encode, if_pos (Nat.mod_lt k basepointOrder_pos)]

theorem encode_inj {k l : ℕ} (h : encode relabel k = encode relabel l) :
    k % basepointOrder = l % basepointOrder := by
  rw [← index_encode relabel k, ← index_encode relabel l, h]

theorem decode_lt {point : Key} {k : ℕ} (h : decode relabel point = some k) :
    k < basepointOrder := by
  unfold decode at h
  split at h
  · cases h
    assumption
  · cases h

/-- The curve calls on multiples of the base point. -/
def crypto (keccak : List UInt8 → Vector UInt8 32) (sha512 : List UInt8 → Vector UInt8 64) :
    Crypto where
  keccak := keccak
  sha512 := sha512
  validateEdwards point := (decode relabel point).isSome
  multiplyEdwards scalar point :=
    (decode relabel point).map fun k => encode relabel (Bytes.ofLE scalar.toList * k)
  subtractEdwards p q :=
    (decode relabel p).bind fun k => (decode relabel q).map fun l =>
      encode relabel (k + (basepointOrder - l))

variable {relabel} {keccak : List UInt8 → Vector UInt8 32} {sha512 : List UInt8 → Vector UInt8 64}

theorem multiplyEdwards_eq_some {scalar : Vector UInt8 32} {point product : Key} :
    (crypto relabel keccak sha512).multiplyEdwards scalar point = some product ↔
      ∃ k, decode relabel point = some k ∧
        encode relabel (Bytes.ofLE scalar.toList * k) = product :=
  Option.map_eq_some_iff

theorem subtractEdwards_eq_some {p q r : Key} :
    (crypto relabel keccak sha512).subtractEdwards p q = some r ↔
      ∃ k, decode relabel p = some k ∧ ∃ l, decode relabel q = some l ∧
        encode relabel (k + (basepointOrder - l)) = r := by
  simp only [crypto, Option.bind_eq_some_iff, Option.map_eq_some_iff]

theorem cancel_mod {n k x y : ℕ} (hx : x < n) (hy : y < n)
    (h : (k + (n - x)) % n = (k + (n - y)) % n) : x = y := by
  have hmod : n - x ≡ n - y [MOD n] := Nat.ModEq.add_left_cancel' k h
  have hadd : n - x + (x + y) ≡ n - y + (x + y) [MOD n] := hmod.add_right _
  have hleft : n - x + (x + y) = y + n := by omega
  have hright : n - y + (x + y) = x + n := by omega
  rw [hleft, hright] at hadd
  have hxy : y % n = x % n := by simpa [Nat.ModEq] using hadd
  rw [Nat.mod_eq_of_lt hx, Nat.mod_eq_of_lt hy] at hxy
  exact hxy.symm

theorem lawful (hbase : (decode relabel edwardsBasePoint).isSome = true) :
    (crypto relabel keccak sha512).Lawful where
  base := hbase
  multiply {scalar point} h := by
    obtain ⟨k, hk⟩ := Option.isSome_iff_exists.mp h
    refine ⟨_, multiplyEdwards_eq_some.mpr ⟨k, hk, rfl⟩, ?_⟩
    exact Option.isSome_iff_exists.mpr ⟨_, decode_encode relabel _⟩
  subtract {p q} hp hq := by
    obtain ⟨k, hk⟩ := Option.isSome_iff_exists.mp hp
    obtain ⟨l, hl⟩ := Option.isSome_iff_exists.mp hq
    refine ⟨_, subtractEdwards_eq_some.mpr ⟨k, hk, l, hl, rfl⟩, ?_⟩
    exact Option.isSome_iff_exists.mpr ⟨_, decode_encode relabel _⟩
  subtract_cancel {p q q' r s s' a a'} hq hq' h h' := by
    obtain ⟨m, -, rfl⟩ := multiplyEdwards_eq_some.mp hq
    obtain ⟨m', -, rfl⟩ := multiplyEdwards_eq_some.mp hq'
    obtain ⟨k, hk, l, hl, rfl⟩ := subtractEdwards_eq_some.mp h
    obtain ⟨k', hk', l', hl', hr⟩ := subtractEdwards_eq_some.mp h'
    obtain rfl := Option.some.inj (hk.symm.trans hk')
    have hmod := cancel_mod (decode_lt relabel hl') (decode_lt relabel hl) (encode_inj relabel hr)
    rw [decode_encode] at hl hl'
    have hvalue := (Option.some.inj hl).trans (hmod.symm.trans (Option.some.inj hl').symm)
    simp only [encode, hvalue]

end Cyclic

/-! ### Two signatures of one user -/

namespace Sample

/-- The relabelling that gives each listed multiple of the base point its listed bytes. -/
def pinned : List (ℕ × ℕ) → Equiv.Perm (Fin (256 ^ 32))
  | [] => Equiv.refl _
  | (k, bytes) :: rest => (Equiv.swap (Fin.ofNat _ k) (Fin.ofNat _ bytes)).trans (pinned rest)

def user : Key :=
  Bytes.toLE 32 11903303657706407974989296177215005343713679411332034699907763981919547054807

def payload : Vector UInt8 64 := Vector.replicate 64 0

def deadline : Int64 := 1735689600

/-- The user's signature over nonce 0. -/
def first : ED25519RecoverInfo where
  signature := Bytes.toLE 64 <|
    103906919536607734052119544951589596616087088384391548858200884257480697232712 +
    2 ^ 256 * 3003619612930723918597737161764805923789350514352908582164481991968473931981
  payload := payload
  deadline := deadline

/-- The user's signature over nonce 1. -/
def second : ED25519RecoverInfo where
  signature := Bytes.toLE 64 <|
    46814756053185006872599485146841722662715244195068659947125867889436817434681 +
    2 ^ 256 * 1917857795517776462585822522010026641166842953460953717513542860633109095587
  payload := payload
  deadline := deadline

/-- The base point, the user, and for each signature its `R`, `S * B` and `H * A`. -/
def points : List (ℕ × ℕ) :=
  [(1, Bytes.ofLE edwardsBasePoint.toList),
    (7196903412274038802701538263280187907152860435200743670699908441353638128764,
      11903303657706407974989296177215005343713679411332034699907763981919547054807),
    (4708987367735811044417658025207603260764144276475470710558078812551123192702,
      103906919536607734052119544951589596616087088384391548858200884257480697232712),
    (3003619612930723918597737161764805923789350514352908582164481991968473931981,
      36670551105052485603425729964373780034871408661257641925950821459892439779756),
    (5531637822527175088153265699600196903882322597257345477608354117702804990268,
      53962637284989583102504536546829789779451038977327565189365070620298589336266),
    (1274224457355562102346863145532730977765562468378148811702476261507956200399,
      46814756053185006872599485146841722662715244195068659947125867889436817434681),
    (1917857795517776462585822522010026641166842953460953717513542860633109095587,
      106099400238051212055958663462279067323029520896743074359659047814805440560472),
    (643633338162214360238959376477295663401280485082804905811066599125152895188,
      69767777430607079147473352696382731453516797702304538569553317721263739739454)]

/-- Keccak-256 of the two signed messages. -/
def keccak (bytes : List UInt8) : Vector UInt8 32 :=
  Bytes.toLE 32 <|
    if bytes = ED25519RecoverInfo.message payload 0 deadline then
      4609352555255280067272665942188351887256050062455911160866004009255151093894
    else 27407500854336108682431846961123952513605242375938030847338353900040714635492

/-- The texts the user signs for nonces 0 and 1. -/
def firstDigest : List UInt8 :=
  Bytes.ascii "DePHY vending machine/Example:\nA3BeGL4cz6iZc5778atpCuQ7Au8tQgoXvqcF6Nc1XuG5"

def secondDigest : List UInt8 :=
  Bytes.ascii "DePHY vending machine/Example:\nGQ51cxHJ3eD9LYaiopcmELri68ZzJ1ztr8zzUcQ1fzp3"

/-- SHA-512 of the two challenges. -/
def sha512 (bytes : List UInt8) : Vector UInt8 64 :=
  Bytes.toLE 64 <|
    if bytes = (signatureR first.signature).toList ++ user.toList ++ firstDigest then
      62917789110559059366761332680459822976328522802120900769649400321233825445758 +
        2 ^ 256 * 30761820420540932750930789687988437663379444368383586983029894886942553132172
    else if bytes = (signatureR second.signature).toList ++ user.toList ++ secondDigest then
      45199295434742597612041637339362143900448812709485759191566946067476804732151 +
        2 ^ 256 * 40427135915068821661440937308535843492977374387224862938052956895886063919946
    else 0

def crypto : Crypto := Cyclic.crypto (pinned points) keccak sha512

theorem verify_first : first.verify crypto deadline 0 user = .ok () := by decide +kernel

theorem verify_second : second.verify crypto deadline 1 user = .ok () := by decide +kernel

theorem lawful : crypto.Lawful := Cyclic.lawful (by decide +kernel)

example : second.verify crypto deadline 0 user = .error .signatureMismatch := by decide +kernel

end Sample

end DsProxy.BalancePayment
