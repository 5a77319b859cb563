import Mathlib.Data.List.Basic
import Mathlib.Data.List.Infix

/-! # Lexical paths

A path as the sequence of its elements, in the way `std::filesystem::path` iterates
over them, and the operations that look at the elements only:

* `append` — `operator/`;
* `normal` — what is left when the dots are resolved;
* `lexicallyNormal` and `lexicallyRelative` — the functions of these names.

Names are of any type.  Where a normal path lands when it is appended to another
one, and when it stays below it, is said by `foldl_push` and `contains_append_iff`. -/

namespace TrustFlow

/-- An element of a path; `empty` is what follows a slash at the end. -/
inductive PathElem (ν : Type) where
  | empty
  | dot
  | dotdot
  | name (n : ν)
deriving DecidableEq

structure PathParts (ν : Type) where
  absolute : Bool
  elems : List (PathElem ν)
deriving DecidableEq

/-- Where a normal path starts: at the root, or some levels above where it is read. -/
inductive PathOrigin where
  | root
  | up (levels : Nat)
deriving DecidableEq

/-- A path without dots, but for those in front of a relative one. -/
structure NormalPath (ν : Type) where
  origin : PathOrigin
  names : List ν
deriving DecidableEq

/-- The root has no parent. -/
def PathOrigin.climb : PathOrigin → Nat → PathOrigin
  | .root, _ => .root
  | .up levels, k => .up (levels + k)

@[simp] theorem PathOrigin.climb_zero (o : PathOrigin) : o.climb 0 = o := by
  cases o <;> rfl

theorem PathOrigin.climb_climb (o : PathOrigin) (j k : Nat) :
    (o.climb j).climb k = o.climb (j + k) := by
  cases o with
  | root => rfl
  | up levels => simp only [climb, Nat.add_assoc]

theorem PathOrigin.climb_eq_self_iff {o : PathOrigin} {k : Nat} :
    o.climb k = o ↔ o = .root ∨ k = 0 := by
  cases o <;> simp [climb]

variable {ν : Type}

/-! ## Normal paths -/

namespace NormalPath

def push (p : NormalPath ν) : PathElem ν → NormalPath ν
  | .empty => p
  | .dot => p
  | .dotdot =>
    if p.names = [] then { p with origin := p.origin.climb 1 }
    else { p with names := p.names.dropLast }
  | .name n => { p with names := p.names ++ [n] }

/-- The path itself, as a relative path with no element. -/
def here : NormalPath ν := ⟨.up 0, []⟩

def climb (p : NormalPath ν) (k : Nat) : NormalPath ν where
  origin := p.origin.climb (k - p.names.length)
  names := p.names.take (p.names.length - k)

def append (p q : NormalPath ν) : NormalPath ν :=
  match q.origin with
  | .root => q
  | .up k => { p.climb k with names := (p.climb k).names ++ q.names }

/-- `q` is `p` or lies below it. -/
def Contains (p q : NormalPath ν) : Prop := p.origin = q.origin ∧ p.names <+: q.names

instance [DecidableEq ν] (p q : NormalPath ν) : Decidable (p.Contains q) :=
  inferInstanceAs (Decidable (p.origin = q.origin ∧ p.names <+: q.names))

@[simp] theorem climb_zero (p : NormalPath ν) : p.climb 0 = p := by
  simp [climb]

@[simp] theorem append_here (p : NormalPath ν) : p.append here = p := by
  simp [append, here]

theorem push_climb (p : NormalPath ν) (k : Nat) :
    (p.climb k).push .dotdot = p.climb (k + 1) := by
  by_cases hlen : p.names.length ≤ k
  · -- No name is left to drop.
    have hnone : p.names.length - k = 0 := by omega
    have hnone' : p.names.length - (k + 1) = 0 := by omega
    have hlevels : k + 1 - p.names.length = k - p.names.length + 1 := by omega
    simp [push, climb, hnone, hnone', hlevels, PathOrigin.climb_climb]
  · have hsome : p.names.take (p.names.length - k) ≠ [] := by
      rw [Ne, List.take_eq_nil_iff]
      rintro (h | h)
      · omega
      · exact hlen (by simp [h])
    have hlevels : k - p.names.length = k + 1 - p.names.length := by omega
    have hdrop : (p.names.take (p.names.length - k)).dropLast =
        p.names.take (p.names.length - (k + 1)) := by
      rw [List.dropLast_eq_take, List.take_take, List.length_take]
      congr 1
      omega
    simp only [push, climb, if_neg hsome, hdrop, hlevels]

theorem push_root {q : NormalPath ν} (hq : q.origin = .root) (e : PathElem ν) :
    (q.push e).origin = .root := by
  cases e with
  | dotdot => by_cases hnames : q.names = [] <;> simp [push, hnames, hq, PathOrigin.climb]
  | _ => exact hq

theorem foldl_push_root {q : NormalPath ν} (hq : q.origin = .root) (es : List (PathElem ν)) :
    (es.foldl push q).origin = .root := by
  induction es generalizing q with
  | nil => exact hq
  | cons e es ih => exact ih (push_root hq e)

theorem foldl_push_of_noClimb {es : List (PathElem ν)} (h : .dotdot ∉ es) (q : NormalPath ν) :
    (es.foldl push q).origin = q.origin := by
  induction es generalizing q with
  | nil => rfl
  | cons e es ih =>
    rw [List.mem_cons, not_or] at h
    rw [List.foldl_cons, ih h.2]
    cases e with
    | dotdot => exact absurd rfl h.1
    | _ => rfl

theorem append_root {p : NormalPath ν} (hp : p.origin = .root) (q : NormalPath ν) :
    (p.append q).origin = .root := by
  cases horigin : q.origin with
  | root => simp only [append, horigin]
  | up k => simp only [append, horigin, climb, hp, PathOrigin.climb]

/-- Resolving one more element commutes with reading the path from somewhere else. -/
theorem append_push (p q : NormalPath ν) (e : PathElem ν) :
    p.append (q.push e) = (p.append q).push e := by
  cases horigin : q.origin with
  | root => simp only [append, horigin, push_root horigin]
  | up k =>
    cases e with
    | empty => rfl
    | dot => rfl
    | name n => simp [append, push, horigin]
    | dotdot =>
      by_cases hnames : q.names = []
      · have hclimb := push_climb p k
        have hup : (q.push .dotdot).origin = .up (k + 1) := by
          simp [push, hnames, horigin, PathOrigin.climb]
        have hnone : (q.push .dotdot).names = [] := by simp [push, hnames]
        simp only [append, horigin, hup, hnames, hnone, List.append_nil, hclimb]
      · simp [append, push, horigin, hnames, List.dropLast_append_of_ne_nil hnames]

theorem append_foldl_push (p : NormalPath ν) (es : List (PathElem ν)) (q : NormalPath ν) :
    p.append (es.foldl push q) = es.foldl push (p.append q) := by
  induction es generalizing q with
  | nil => rfl
  | cons e es ih => rw [List.foldl_cons, List.foldl_cons, ih, append_push]

theorem push_origin {q : NormalPath ν} {k : Nat} (hq : q.origin = .up k) (e : PathElem ν) :
    ∃ k', (q.push e).origin = .up k' := by
  cases e with
  | empty => exact ⟨k, hq⟩
  | dot => exact ⟨k, hq⟩
  | name n => exact ⟨k, hq⟩
  | dotdot =>
    by_cases hnames : q.names = []
    · exact ⟨k + 1, by simp [push, hnames, hq, PathOrigin.climb]⟩
    · exact ⟨k, by simp [push, hnames, hq]⟩

theorem foldl_push_origin (es : List (PathElem ν)) :
    ∀ {q : NormalPath ν} {k : Nat}, q.origin = .up k →
      ∃ k', (es.foldl push q).origin = .up k' := by
  induction es with
  | nil => exact fun hq => ⟨_, hq⟩
  | cons e es ih =>
    intro q k hq
    obtain ⟨k', hk'⟩ := push_origin hq e
    exact ih hk'

/-- Resolving elements from a path on is resolving them on their own and appending the result. -/
theorem foldl_push (p : NormalPath ν) (es : List (PathElem ν)) :
    es.foldl push p = p.append (es.foldl push here) := by
  rw [append_foldl_push, append_here]

theorem foldl_push_names (names : List ν) (p : NormalPath ν) :
    (names.map PathElem.name).foldl push p = { p with names := p.names ++ names } := by
  induction names generalizing p with
  | nil => simp
  | cons name names ih => simp [push, ih]

theorem foldl_push_ups (p : NormalPath ν) (k : Nat) :
    (List.replicate k PathElem.dotdot).foldl push p = p.climb k := by
  induction k with
  | zero => simp
  | succ k ih => rw [List.replicate_succ', List.foldl_concat, ih, push_climb]

/-- A relative path leads to a place below where it is read if the levels it climbs are climbed
    down again by the same names. -/
theorem contains_append_iff {p q : NormalPath ν} {k : Nat} (hq : q.origin = .up k) :
    p.Contains (p.append q) ↔
      (p.origin = .root ∨ k ≤ p.names.length) ∧
        p.names.drop (p.names.length - k) <+: q.names := by
  have hnames : p.names <+: p.names.take (p.names.length - k) ++ q.names ↔
      p.names.drop (p.names.length - k) <+: q.names := by
    have hcancel : p.names.take (p.names.length - k) ++ p.names.drop (p.names.length - k) <+:
        p.names.take (p.names.length - k) ++ q.names ↔ _ := List.prefix_append_right_inj _
    rwa [List.take_append_drop] at hcancel
  have horigin : p.origin = p.origin.climb (k - p.names.length) ↔
      p.origin = .root ∨ k ≤ p.names.length := by
    rw [eq_comm, PathOrigin.climb_eq_self_iff, Nat.sub_eq_zero_iff_le]
  simp only [Contains, append, hq, climb, hnames, horigin]

/-- Two relative paths lead to one place if the one that climbs more levels comes back down
    through the names it climbed over and then goes on like the other. -/
theorem names_append_eq_iff {p q r : NormalPath ν} {k k' : Nat} (hq : q.origin = .up k)
    (hr : r.origin = .up k') (hle : k ≤ k') :
    (p.append q).names = (p.append r).names ↔
      r.names = (p.names.take (p.names.length - k)).drop (p.names.length - k') ++ q.names := by
  -- What is left of `p` for the first path is what is left for the second and the names between.
  have hsplit := List.take_append_drop (p.names.length - k') (p.names.take (p.names.length - k))
  rw [List.take_take, Nat.min_eq_left (Nat.sub_le_sub_left hle _)] at hsplit
  simp only [append, hq, hr, climb]
  rw [← hsplit, List.append_assoc, List.append_right_inj, hsplit, eq_comm]

end NormalPath

/-! ## Paths -/

namespace PathParts

/-- The path with the empty text. -/
def nil : PathParts ν := ⟨false, []⟩

def start (p : PathParts ν) : NormalPath ν := ⟨if p.absolute then .root else .up 0, []⟩

def normal (p : PathParts ν) : NormalPath ν := p.elems.foldl NormalPath.push p.start

theorem normal_names (names : List ν) :
    (⟨false, names.map .name⟩ : PathParts ν).normal = ⟨.up 0, names⟩ := by
  simp [normal, start, NormalPath.foldl_push_names]

variable [DecidableEq ν]

def dropSlash (es : List (PathElem ν)) : List (PathElem ν) :=
  if es.getLast? = some .empty then es.dropLast else es

/-- `operator/`: an absolute right operand replaces the left one, and an empty one puts a slash
    behind a file name. -/
def append (p q : PathParts ν) : PathParts ν :=
  if q.absolute then q
  else if q.elems = [] then
    { p with elems := if p.elems = [] then [] else dropSlash p.elems ++ [.empty] }
  else { p with elems := dropSlash p.elems ++ q.elems }

/-- `lexically_normal`.  A path that ends in a name and then dots keeps a slash at its end. -/
def lexicallyNormal (p : PathParts ν) : PathParts ν :=
  if p = nil then nil
  else
    let names := p.normal.names.map PathElem.name
    let ups := match p.normal.origin with
      | .root => []
      | .up k => List.replicate k PathElem.dotdot
    let slash := match p.elems.getLast? with
      | some (.name _) => []
      | _ => if names = [] then [] else [PathElem.empty]
    let elems := ups ++ names ++ slash
    ⟨p.absolute, if p.absolute = false ∧ elems = [] then [.dot] else elems⟩

/-- A path of names, with or without a slash at its end, is normal. -/
theorem lexicallyNormal_names {names : List ν} {tail : List (PathElem ν)} (absolute : Bool)
    (hne : names ≠ []) (htail : tail = [] ∨ tail = [.empty]) :
    lexicallyNormal ⟨absolute, names.map .name ++ tail⟩ = ⟨absolute, names.map .name ++ tail⟩ := by
  obtain ⟨front, last, rfl⟩ := (List.eq_nil_or_concat' names).resolve_left hne
  have hnormal : (⟨absolute, (front ++ [last]).map .name ++ tail⟩ : PathParts ν).normal =
      ⟨if absolute then .root else .up 0, front ++ [last]⟩ := by
    rw [normal, List.foldl_append, NormalPath.foldl_push_names]
    rcases htail with rfl | rfl <;> simp [start, NormalPath.push]
  rw [lexicallyNormal, hnormal]
  rcases htail with rfl | rfl <;> cases absolute <;> simp [nil]

/-- What two sequences have left behind the elements they start with in common. -/
def mismatch : List (PathElem ν) → List (PathElem ν) → List (PathElem ν) × List (PathElem ν)
  | a :: as, b :: bs => if a = b then mismatch as bs else (a :: as, b :: bs)
  | as, bs => (as, bs)

/-- The levels to climb from the end of `es` to its beginning. -/
def depth : List (PathElem ν) → Int
  | [] => 0
  | .dotdot :: es => depth es - 1
  | .name _ :: es => depth es + 1
  | _ :: es => depth es

/-- `p.lexically_relative(base)`. -/
def lexicallyRelative (p base : PathParts ν) : PathParts ν :=
  if p.absolute ≠ base.absolute then nil
  else
    let (a, b) := mismatch p.elems base.elems
    if a = [] ∧ b = [] then ⟨false, [.dot]⟩
    else if depth b = 0 ∧ (a = [] ∨ a.head? = some .empty) then ⟨false, [.dot]⟩
    else if 0 ≤ depth b then ⟨false, List.replicate (depth b).toNat .dotdot ++ a⟩
    else nil

theorem foldl_push_dropSlash (p : NormalPath ν) (es : List (PathElem ν)) :
    (dropSlash es).foldl NormalPath.push p = es.foldl NormalPath.push p := by
  rw [dropSlash]
  split
  next hlast =>
    obtain ⟨front, rfl⟩ := List.getLast?_eq_some_iff.mp hlast
    simp [NormalPath.push]
  next => rfl

/-- Normalising a composed path is reading the right part from the normal left part. -/
theorem normal_append (p : PathParts ν) {q : PathParts ν} (hq : q.absolute = false) :
    (p.append q).normal = p.normal.append q.normal := by
  have hstart : q.start = .here := by simp [start, hq, NormalPath.here]
  rw [show q.normal = q.elems.foldl NormalPath.push .here by rw [normal, hstart],
    ← NormalPath.foldl_push]
  by_cases hempty : q.elems = []
  · by_cases hleft : p.elems = []
    · simp [append, normal, start, hq, hempty, hleft]
    · simp [append, normal, start, hq, hempty, hleft, foldl_push_dropSlash, NormalPath.push]
  · simp [append, normal, start, hq, hempty, foldl_push_dropSlash]

theorem dropSlash_append (es : List (PathElem ν)) :
    ∃ tail, es = dropSlash es ++ tail ∧ (tail = [] ∨ tail = [.empty]) := by
  by_cases hlast : es.getLast? = some .empty
  · obtain ⟨front, rfl⟩ := List.getLast?_eq_some_iff.mp hlast
    exact ⟨[.empty], by simp [dropSlash], .inr rfl⟩
  · exact ⟨[], by simp [dropSlash, hlast], .inl rfl⟩

theorem mismatch_append (front as bs : List (PathElem ν)) :
    mismatch (front ++ as) (front ++ bs) = mismatch as bs := by
  induction front with
  | nil => rfl
  | cons e front ih => simp [mismatch, ih]

theorem lexicallyRelative_not_absolute (p base : PathParts ν) :
    (p.lexicallyRelative base).absolute = false := by
  simp only [lexicallyRelative]
  split
  · rfl
  · split
    · rfl
    · split
      · rfl
      · split <;> rfl

/-- A relative path to something at or below a directory does not climb. -/
theorem lexicallyRelative_noClimb (base rest : List ν) :
    .dotdot ∉ ((⟨true, (base ++ rest).map .name⟩ : PathParts ν).lexicallyRelative
      ⟨true, base.map .name⟩).elems := by
  have hmismatch : mismatch ((base ++ rest).map PathElem.name) (base.map PathElem.name) =
      (rest.map .name, []) := by
    rw [List.map_append, ← List.append_nil (base.map PathElem.name), List.append_assoc,
      List.nil_append, mismatch_append]
    cases rest <;> rfl
  rw [lexicallyRelative, if_neg (by simp)]
  simp only [hmismatch, depth]
  cases rest with
  | nil => simp
  | cons n rest => simp

/-- Two locations of which neither is above the other part somewhere. -/
theorem exists_apart {p base : List ν} (hbelow : ¬ base <+: p) (habove : ¬ p <+: base) :
    ∃ front x a y b, x ≠ y ∧ p = front ++ x :: a ∧ base = front ++ y :: b := by
  induction p generalizing base with
  | nil => exact absurd List.nil_prefix habove
  | cons x a ih =>
    cases base with
    | nil => exact absurd List.nil_prefix hbelow
    | cons y b =>
      by_cases hxy : x = y
      · subst hxy
        obtain ⟨front, x', a', y', b', hne, rfl, rfl⟩ :=
          ih (fun h => hbelow ((List.prefix_cons_inj x).mpr h))
            (fun h => habove ((List.prefix_cons_inj x).mpr h))
        exact ⟨x :: front, x', a', y', b', hne, rfl, rfl⟩
      · exact ⟨[], x, a, y, b, hxy, rfl, rfl⟩

omit [DecidableEq ν] in
theorem depth_names (names : List ν) : depth (names.map PathElem.name) = names.length := by
  induction names with
  | nil => rfl
  | cons n names ih => simp [depth, ih]

/-- Between two locations that part behind `front`, the relative path climbs there first. -/
theorem lexicallyRelative_of_apart {front : List ν} {x y : ν} (hne : x ≠ y) (a b : List ν) :
    (⟨true, (front ++ x :: a).map .name⟩ : PathParts ν).lexicallyRelative
        ⟨true, (front ++ y :: b).map .name⟩ =
      ⟨false, List.replicate (b.length + 1) .dotdot ++ (x :: a).map .name⟩ := by
  have hmismatch : mismatch ((front ++ x :: a).map PathElem.name)
      ((front ++ y :: b).map PathElem.name) = ((x :: a).map .name, (y :: b).map .name) := by
    rw [List.map_append, List.map_append, mismatch_append]
    simp [mismatch, hne]
  have hdepth : depth ((y :: b).map PathElem.name) = (b.length + 1 : Nat) := depth_names (y :: b)
  rw [lexicallyRelative, if_neg (by simp)]
  simp only [hmismatch, hdepth]
  rw [if_neg (by simp), if_neg (by omega), if_pos (by omega), Int.toNat_natCast]

/-- The path of something below a directory, relative to the directory. -/
theorem lexicallyRelative_of_below {p base : PathParts ν} {names : List ν} (hne : names ≠ [])
    (h : p = ⟨base.absolute, dropSlash base.elems ++ names.map .name⟩) :
    p.lexicallyRelative base = ⟨false, names.map .name⟩ := by
  obtain ⟨tail, htail, hslash⟩ := dropSlash_append base.elems
  have hmismatch : mismatch p.elems base.elems = (names.map .name, tail) := by
    rw [h, htail]
    have hdrop : dropSlash (dropSlash base.elems ++ tail) = dropSlash base.elems := by
      rw [← htail]
    rw [hdrop, mismatch_append]
    cases names with
    | nil => exact absurd rfl hne
    | cons n names =>
      rcases hslash with rfl | rfl
      · rfl
      · simp [mismatch]
  have hdepth : depth tail = 0 := by
    rcases hslash with rfl | rfl <;> rfl
  have hmap : names.map PathElem.name ≠ [] := by simpa using hne
  rw [lexicallyRelative, if_neg (by rw [h]; simp)]
  simp [hmismatch, hdepth, hmap]

end PathParts

end TrustFlow
