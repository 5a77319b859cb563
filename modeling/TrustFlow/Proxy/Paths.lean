import TrustFlow.Crypto
import TrustFlow.Data.Base64
import TrustFlow.FileTree
import TrustFlow.LexicalPath
import Mathlib.Data.List.TakeWhile

/-! # Paths of the data capsule proxy

Path texts as `std::filesystem::path` composes them, the staging directory of a
path, the names of encrypted files, and the names that decryption gives back. -/

namespace TrustFlow.Proxy

abbrev Name := Bytes

def slash : UInt8 := 47

/-- `operator/` on path texts: an absolute right operand replaces the left one. -/
def pathAppend (a b : Bytes) : Bytes :=
  if b.head? = some slash then b
  else if a = [] ∨ a.getLast? = some slash then a ++ b
  else a ++ [slash] ++ b

/-- `path::filename`: what follows the last slash. -/
def filename (path : Bytes) : Name := (path.reverse.takeWhile (· ≠ slash)).reverse

def relText : Location Name → Bytes
  | [] => []
  | [n] => n
  | n :: ns => n ++ [slash] ++ relText ns

def kTempDir : Bytes := str "/tmp"

def genTempDir (H : Sha256) (path : Bytes) : Bytes :=
  pathAppend kTempDir (base64Encode (H.hash path))

/-! ## Names of encrypted files -/

def kEncSuffix : Bytes := str ".enc"

/-- The location of a file with the suffix appended to its name. -/
def encLocation : Location Name → Location Name
  | [] => []
  | [n] => [n ++ kEncSuffix]
  | n :: ns => n :: encLocation ns

theorem pathAppend_append {b : Bytes} (a c : Bytes) (h : b ≠ []) :
    pathAppend a (b ++ c) = pathAppend a b ++ c := by
  have hhead : (b ++ c).head? = b.head? := List.head?_append_of_ne_nil b h
  by_cases hslash : b.head? = some slash
  · rw [pathAppend, pathAppend, hhead, if_pos hslash, if_pos hslash]
  · by_cases hends : a = [] ∨ a.getLast? = some slash
    · simp only [pathAppend, hhead, if_neg hslash, if_pos hends, List.append_assoc]
    · simp only [pathAppend, hhead, if_neg hslash, if_neg hends, List.append_assoc]

theorem relText_encLocation {rel : Location Name} (h : rel ≠ []) :
    relText (encLocation rel) = relText rel ++ kEncSuffix := by
  induction rel with
  | nil => exact absurd rfl h
  | cons n ns ih =>
    cases ns with
    | nil => rfl
    | cons m ms =>
      have htail := ih (List.cons_ne_nil m ms)
      cases ms with
      | nil => simp only [encLocation, relText, List.append_assoc]
      | cons k ks =>
        simp only [encLocation, relText, List.append_assoc] at htail ⊢
        rw [htail]

theorem encLocation_length (rel : Location Name) : (encLocation rel).length = rel.length := by
  induction rel with
  | nil => rfl
  | cons n ns ih =>
    cases ns with
    | nil => rfl
    | cons m ms => simp only [encLocation, List.length_cons, ih]

theorem encLocation_ne_nil {rel : Location Name} (h : rel ≠ []) : encLocation rel ≠ [] := by
  intro hnil
  have hlen := encLocation_length rel
  rw [hnil] at hlen
  exact h (List.eq_nil_of_length_eq_zero hlen.symm)

theorem encLocation_inj {rel rel' : Location Name} (h : encLocation rel = encLocation rel') :
    rel = rel' := by
  -- Both have the same length, and the suffix is taken off the last name only.
  induction rel generalizing rel' with
  | nil =>
    have hlen := congrArg List.length h
    rw [encLocation_length, encLocation_length] at hlen
    exact (List.eq_nil_of_length_eq_zero hlen.symm).symm
  | cons n ns ih =>
    have hlen := congrArg List.length h
    rw [encLocation_length, encLocation_length] at hlen
    cases rel' with
    | nil => cases hlen
    | cons n' ns' =>
      cases ns with
      | nil =>
        cases ns' with
        | nil =>
          simp only [encLocation, List.cons.injEq, and_true] at h
          rw [List.append_cancel_right h]
        | cons _ _ => cases hlen
      | cons m ms =>
        cases ns' with
        | nil => cases hlen
        | cons m' ms' =>
          simp only [encLocation, List.cons.injEq] at h
          rw [h.1, ih h.2]

theorem encLocation_concat (dir : Location Name) (n : Name) :
    encLocation (dir ++ [n]) = dir ++ [n ++ kEncSuffix] := by
  induction dir with
  | nil => rfl
  | cons m dir ih =>
    cases dir with
    | nil => rfl
    | cons k dir =>
      simp only [List.cons_append, encLocation] at ih ⊢
      rw [ih]

theorem encLocation_dropLast {rel : Location Name} (h : rel ≠ []) :
    (encLocation rel).dropLast = rel.dropLast := by
  obtain ⟨dir, n, rfl⟩ := (List.eq_nil_or_concat' rel).resolve_left h
  rw [encLocation_concat, List.dropLast_concat, List.dropLast_concat]

/-! ## Extensions -/

def dot : UInt8 := 46

def afterLastDot (name : Name) : Bytes := (name.reverse.takeWhile (· ≠ dot)).reverse

/-- `path::extension`: the last dot of the file name and what follows it.  A dot in front does
    not count, and the names of the directory and of its parent have no extension. -/
def extension (name : Name) : Bytes :=
  if dot ∈ name ∧ (afterLastDot name).length + 1 < name.length ∧ name ≠ str ".." then
    dot :: afterLastDot name
  else []

/-- The name after `replace_extension("")`. -/
def stem (name : Name) : Name := name.take (name.length - (extension name).length)

def decLocation : Location Name → Location Name
  | [] => []
  | [n] => [stem n]
  | n :: ns => n :: decLocation ns

theorem extension_append_enc {n : Name} (h : n ≠ []) :
    extension (n ++ kEncSuffix) = kEncSuffix := by
  have hsuffix : kEncSuffix = [dot, 101, 110, 99] := by decide
  have hext : afterLastDot (n ++ kEncSuffix) = [101, 110, 99] := by
    simp [afterLastDot, hsuffix, dot]
  have hlen : (n ++ kEncSuffix).length = n.length + 4 := by simp [hsuffix]
  have hpos := List.length_pos_of_ne_nil h
  rw [extension, hext, if_pos, hsuffix]
  refine ⟨by simp [hsuffix], by simp only [hlen, List.length_cons, List.length_nil]; omega, ?_⟩
  intro hdots
  rw [hdots, show (str "..").length = 2 by decide] at hlen
  omega

theorem stem_append_enc {n : Name} (h : n ≠ []) : stem (n ++ kEncSuffix) = n := by
  rw [stem, extension_append_enc h, List.length_append, Nat.add_sub_cancel, List.take_left]

theorem stem_ne_nil {name : Name} (h : extension name = kEncSuffix) : stem name ≠ [] := by
  have hlen : (extension name).length < name.length := by
    unfold extension at h ⊢
    split at h
    next hdot =>
      rw [if_pos hdot]
      exact hdot.2.1
    next => exact absurd h (by decide)
  apply List.ne_nil_of_length_pos
  rw [stem, List.length_take]
  omega

theorem decLocation_concat (dir : Location Name) (n : Name) :
    decLocation (dir ++ [n]) = dir ++ [stem n] := by
  induction dir with
  | nil => rfl
  | cons m dir ih =>
    cases dir with
    | nil => rfl
    | cons k dir =>
      simp only [List.cons_append, decLocation] at ih ⊢
      rw [ih]

/-! ## Resolving -/

/-- The names that stand for a directory itself and for its parent. -/
def isDots (name : Name) : Bool := name = str "." || name = str ".."

/-- A name that an entry of a directory can have. -/
structure ValidName (name : Name) : Prop where
  ne_nil : name ≠ []
  noSlash : slash ∉ name
  notDots : isDots name = false

theorem ValidName.stem {name : Name} (h : ValidName name) (hext : extension name = kEncSuffix)
    (hdots : isDots (stem name) = false) : ValidName (stem name) where
  ne_nil := stem_ne_nil hext
  noSlash hslash := h.noSlash (List.mem_of_mem_take hslash)
  notDots := hdots

theorem isDots_append_enc (name : Name) : isDots (name ++ kEncSuffix) = false := by
  have hlen : (name ++ kEncSuffix).length = name.length + 4 := List.length_append
  have hdots : ∀ dots : Name, dots.length ≤ 2 → name ++ kEncSuffix ≠ dots := by
    rintro dots hdots rfl
    omega
  simp [isDots, hdots (str ".") (by decide), hdots (str "..") (by decide)]

theorem ValidName.append_enc {name : Name} (h : ValidName name) :
    ValidName (name ++ kEncSuffix) where
  ne_nil := List.append_ne_nil_of_left_ne_nil h.ne_nil _
  noSlash hslash := (List.mem_append.mp hslash).elim h.noSlash (by decide)
  notDots := isDots_append_enc name

/-- Encrypting adds to the last name only what decrypting takes away. -/
theorem decLocation_encLocation {rel : Location Name} (h : ∀ n ∈ rel, ValidName n) :
    decLocation (encLocation rel) = rel := by
  rcases List.eq_nil_or_concat' rel with rfl | ⟨dir, n, rfl⟩
  · rfl
  · rw [encLocation_concat, decLocation_concat, stem_append_enc (h n (by simp)).ne_nil]

theorem valid_encLocation {rel : Location Name} (h : ∀ n ∈ rel, ValidName n) :
    ∀ n ∈ encLocation rel, ValidName n := by
  rcases List.eq_nil_or_concat' rel with rfl | ⟨dir, last, rfl⟩
  · exact h
  · rw [encLocation_concat]
    intro n hn
    rcases List.mem_append.mp hn with hn | hn
    · exact h n (List.mem_append_left _ hn)
    · obtain rfl := List.mem_singleton.mp hn
      exact (h last (by simp)).append_enc

theorem relText_ne_nil {rel : Location Name} (h : ∀ n ∈ rel, ValidName n) (hne : rel ≠ []) :
    relText rel ≠ [] := by
  cases rel with
  | nil => exact absurd rfl hne
  | cons n ns =>
    have hn := (h n List.mem_cons_self).ne_nil
    cases ns with
    | nil => exact hn
    | cons m ms => simp [relText]

instance (name : Name) : Decidable (ValidName name) :=
  decidable_of_iff (name ≠ [] ∧ slash ∉ name ∧ isDots name = false)
    ⟨fun h => ⟨h.1, h.2.1, h.2.2⟩, fun h => ⟨h.ne_nil, h.noSlash, h.notDots⟩⟩

/-- What the operating system makes of a path, where there are no symbolic links. -/
def ResolvesNames (resolve : Bytes → Location Name) : Prop :=
  ∀ path rel, (∀ n ∈ rel, ValidName n) →
    resolve (pathAppend path (relText rel)) = resolve path ++ rel

def pathComponents (path : Bytes) : Location Name := (path.splitOn slash).filter (· ≠ [])

theorem pathComponents_append (a b : Bytes) :
    pathComponents (a ++ slash :: b) = pathComponents a ++ pathComponents b := by
  simp only [pathComponents, List.splitOn_append_cons_self, List.filter_append]

theorem pathComponents_pathAppend (a : Bytes) {b : Bytes} (hb : b.head? ≠ some slash) :
    pathComponents (pathAppend a b) = pathComponents a ++ pathComponents b := by
  rw [pathAppend, if_neg hb]
  split
  next hends =>
    rcases hends with rfl | hlast
    · rfl
    · obtain ⟨front, rfl⟩ := List.getLast?_eq_some_iff.mp hlast
      rw [List.append_assoc, List.singleton_append, pathComponents_append, pathComponents_append]
      simp [pathComponents]
  next => rw [List.append_assoc, List.singleton_append, pathComponents_append]

theorem pathComponents_of_noSlash {path : Bytes} (h : slash ∉ path) (hne : path ≠ []) :
    pathComponents path = [path] := by
  rw [pathComponents, List.splitOn_eq_singleton h]
  simp [hne]

theorem pathComponents_relText {rel : Location Name} (h : ∀ n ∈ rel, ValidName n) :
    pathComponents (relText rel) = rel := by
  have hname : ∀ n, ValidName n → pathComponents n = [n] := fun n hn =>
    pathComponents_of_noSlash hn.noSlash hn.ne_nil
  induction rel with
  | nil => rfl
  | cons n ns ih =>
    have hn := hname n (h n List.mem_cons_self)
    cases ns with
    | nil => exact hn
    | cons m ms =>
      rw [relText, List.append_assoc, List.singleton_append, pathComponents_append, hn,
        ih fun k hk => h k (List.mem_cons_of_mem _ hk)]
      · rfl
      · simp

theorem resolvesNames_pathComponents : ResolvesNames pathComponents := by
  intro path rel h
  have hhead : (relText rel).head? ≠ some slash := by
    cases rel with
    | nil => simp [relText]
    | cons n ns =>
      have hn := h n List.mem_cons_self
      cases n with
      | nil => exact absurd rfl hn.ne_nil
      | cons c cs =>
        have hc : c ≠ slash := fun heq => hn.noSlash (heq ▸ List.mem_cons_self)
        cases ns with
        | nil => simpa [relText] using hc
        | cons m ms => simpa [relText] using hc
  rw [pathComponents_pathAppend path hhead, pathComponents_relText h]

/-! ## Elements -/

def pathElem (name : Name) : PathElem Name :=
  if name = str "." then .dot else if name = str ".." then .dotdot else .name name

theorem pathElem_of_notDots {name : Name} (h : isDots name = false) :
    pathElem name = .name name := by
  simp only [isDots, Bool.or_eq_false_iff, decide_eq_false_iff_not] at h
  rw [pathElem, if_neg h.1, if_neg h.2]

/-- The elements of a path text, in the order of the iterators of `std::filesystem::path`. -/
def pathParts (path : Bytes) : PathParts Name where
  absolute := path.head? = some slash
  elems := (pathComponents path).map pathElem ++
    if path.getLast? = some slash ∧ pathComponents path ≠ [] then [.empty] else []

def parentPath (path : PathParts Name) : PathParts Name :=
  { path with elems := path.elems.dropLast }

/-- A text without a slash, or two texts around one. -/
theorem slash_induction {motive : Bytes → Prop} (flat : ∀ path, slash ∉ path → motive path)
    (join : ∀ a b, motive a → motive b → motive (a ++ slash :: b)) (path : Bytes) :
    motive path := by
  induction hlen : path.length using Nat.strong_induction_on generalizing path with
  | _ len ih =>
    by_cases hslash : slash ∈ path
    · obtain ⟨a, b, rfl⟩ := List.append_of_mem hslash
      rw [List.length_append, List.length_cons] at hlen
      exact join a b (ih _ (by omega) a rfl) (ih _ (by omega) b rfl)
    · exact flat path hslash

theorem pathComponents_ne_nil {path : Bytes} {c : UInt8} (hc : c ∈ path) (hne : c ≠ slash) :
    pathComponents path ≠ [] := by
  induction path using slash_induction with
  | flat path hslash =>
    rw [pathComponents_of_noSlash hslash (List.ne_nil_of_mem hc)]
    exact List.cons_ne_nil _ _
  | join a b iha ihb =>
    rw [pathComponents_append]
    rcases List.mem_append.mp hc with ha | hb
    · exact List.append_ne_nil_of_left_ne_nil (iha ha) _
    · have hb := (List.mem_cons.mp hb).resolve_left hne
      exact List.append_ne_nil_of_right_ne_nil _ (ihb hb)

theorem mem_of_mem_pathComponents {path : Bytes} {name : Name} {c : UInt8}
    (hname : name ∈ pathComponents path) (hc : c ∈ name) : c ∈ path := by
  induction path using slash_induction with
  | flat path hslash =>
    have hne : path ≠ [] := by
      rintro rfl
      simp [pathComponents] at hname
    rw [pathComponents_of_noSlash hslash hne, List.mem_singleton] at hname
    rwa [← hname]
  | join a b iha ihb =>
    rw [pathComponents_append] at hname
    rcases List.mem_append.mp hname with hname | hname
    · exact List.mem_append_left _ (iha hname)
    · exact List.mem_append_right _ (List.mem_cons_of_mem _ (ihb hname))

theorem normal_pathParts (path : Bytes) : (pathParts path).normal =
    ((pathComponents path).map pathElem).foldl NormalPath.push (pathParts path).start := by
  rw [PathParts.normal, pathParts, List.foldl_append]
  split <;> rfl

/-- A path without dots is normal but for its slashes. -/
theorem normal_pathParts_of_noDot {path : Bytes} (h : dot ∉ path) :
    (pathParts path).normal = ⟨(pathParts path).start.origin, pathComponents path⟩ := by
  have helem : (pathComponents path).map pathElem = (pathComponents path).map PathElem.name := by
    apply List.map_congr_left
    intro name hname
    have hdot : dot ∉ name := fun hc => h (mem_of_mem_pathComponents hname hc)
    have hone : name ≠ str "." := by
      rintro rfl
      exact hdot (by decide)
    have htwo : name ≠ str ".." := by
      rintro rfl
      exact hdot (by decide)
    simp [pathElem, hone, htwo]
  rw [normal_pathParts, helem, NormalPath.foldl_push_names]
  simp [PathParts.start]

theorem filename_of_noSlash {path : Bytes} (h : slash ∉ path) : filename path = path := by
  have hall : path.reverse.takeWhile (· ≠ slash) = path.reverse := by
    rw [List.takeWhile_eq_self_iff]
    intro c hc
    have hne : c ≠ slash := fun heq => h (heq ▸ List.mem_reverse.mp hc)
    simpa using hne
  rw [filename, hall, List.reverse_reverse]

theorem filename_append (a b : Bytes) : filename (a ++ slash :: b) = filename b := by
  have hstop : ∀ front back : Bytes, (front ++ slash :: back).takeWhile (· ≠ slash) =
      front.takeWhile (· ≠ slash) := by
    intro front back
    induction front with
    | nil => simp
    | cons c front ih => simp only [List.cons_append, List.takeWhile_cons, ih]
  rw [filename, List.reverse_append, List.reverse_cons, List.append_assoc, List.singleton_append,
    hstop, filename]

theorem filename_noSlash (path : Bytes) : slash ∉ filename path := by
  induction path using slash_induction with
  | flat path hslash => rwa [filename_of_noSlash hslash]
  | join a b _ ihb => rwa [filename_append]

/-- The file name of a path is its last element. -/
theorem getLast?_pathParts {path : Bytes} (h : filename path ≠ []) :
    (pathParts path).elems.getLast? = some (pathElem (filename path)) := by
  have hlast : (pathComponents path).getLast? = some (filename path) ∧
      path.getLast? ≠ some slash := by
    induction path using slash_induction with
    | flat path hslash =>
      rw [filename_of_noSlash hslash] at h ⊢
      rw [pathComponents_of_noSlash hslash h]
      exact ⟨rfl, fun heq => hslash (List.mem_of_getLast? heq)⟩
    | join a b _ ihb =>
      rw [filename_append] at h ⊢
      obtain ⟨hname, hslash⟩ := ihb h
      have hne : b ≠ [] := by
        rintro rfl
        exact h rfl
      rw [pathComponents_append, List.getLast?_append, hname]
      refine ⟨rfl, ?_⟩
      rwa [List.getLast?_append, List.getLast?_cons_of_ne_nil hne,
        List.getLast?_eq_getLast_of_ne_nil hne, Option.some_or,
        ← List.getLast?_eq_getLast_of_ne_nil]
  simp [pathParts, hlast.1, hlast.2]

/-! ## Reading a path from a directory -/

theorem absolute_pathAppend (a : Bytes) {b : Bytes} (hb : b.head? ≠ some slash) :
    (pathParts (pathAppend a b)).absolute = (pathParts a).absolute := by
  rw [pathAppend, if_neg hb]
  cases a with
  | nil => simp [pathParts, hb]
  | cons c a => split <;> simp [pathParts]

theorem start_of_relative {path : PathParts Name} (h : path.absolute = false) :
    path.start = .here := by
  simp [PathParts.start, h, NormalPath.here]

/-- Normalising a joined path is reading the right operand from the normal left one. -/
theorem normal_pathAppend (a : Bytes) {b : Bytes} (hb : b.head? ≠ some slash) :
    (pathParts (pathAppend a b)).normal = (pathParts a).normal.append (pathParts b).normal := by
  have hstart : (pathParts (pathAppend a b)).start = (pathParts a).start := by
    rw [PathParts.start, PathParts.start, absolute_pathAppend a hb]
  have hrelative : (pathParts b).absolute = false := by simp [pathParts, hb]
  rw [normal_pathParts, normal_pathParts a, normal_pathParts b, hstart,
    start_of_relative hrelative, ← NormalPath.foldl_push, pathComponents_pathAppend a hb,
    List.map_append, List.foldl_append]

/-- Where the operating system finds a path, without symbolic links. -/
def locate (cwd : Location Name) (path : PathParts Name) : Location Name :=
  ((⟨.root, cwd⟩ : NormalPath Name).append path.normal).names

/-- A relative path is read from where the path in front of it leads. -/
theorem append_locate (cwd : Location Name) (path : PathParts Name) {rel : PathParts Name}
    (h : rel.absolute = false) :
    ((⟨.root, cwd⟩ : NormalPath Name).append (path.normal.append rel.normal)).names =
      ((⟨.root, locate cwd path⟩ : NormalPath Name).append rel.normal).names := by
  have hroot := NormalPath.append_root (p := ⟨.root, cwd⟩) rfl path.normal
  have hdir : (⟨.root, locate cwd path⟩ : NormalPath Name) =
      (⟨.root, cwd⟩ : NormalPath Name).append path.normal :=
    congrArg (fun origin => (⟨origin, locate cwd path⟩ : NormalPath Name)) hroot.symm
  have hrel : rel.normal = rel.elems.foldl NormalPath.push .here := by
    rw [PathParts.normal, start_of_relative h]
  rw [hdir, hrel, ← NormalPath.foldl_push, ← NormalPath.foldl_push,
    NormalPath.append_foldl_push]

theorem locate_append (cwd : Location Name) (path : PathParts Name) {rel : PathParts Name}
    (h : rel.absolute = false) :
    locate cwd (path.append rel) =
      ((⟨.root, locate cwd path⟩ : NormalPath Name).append rel.normal).names := by
  rw [locate, PathParts.normal_append _ h, append_locate cwd path h]

theorem locate_append_names (cwd : Location Name) (path : PathParts Name) (names : List Name) :
    locate cwd (path.append ⟨false, names.map .name⟩) = locate cwd path ++ names := by
  rw [locate_append cwd path rfl, PathParts.normal_names]
  simp [NormalPath.append]

/-- The levels that a relative path climbs are climbed down again by the last names of `dir`. -/
def LeadsBackTo (dir rel : NormalPath Name) : Prop :=
  ∃ k, rel.origin = .up k ∧ (dir.origin = .root ∨ k ≤ dir.names.length) ∧
    dir.names.drop (dir.names.length - k) <+: rel.names

/-- Read from `dir`, the second path climbs at least as far as the first, comes back down through
    the names of `dir` between the two levels and goes on like the first. -/
def Rejoins (dir : Location Name) (rel rel' : NormalPath Name) : Prop :=
  match rel.origin, rel'.origin with
  | .up k, .up k' =>
    k ≤ k' ∧ rel'.names = (dir.take (dir.length - k)).drop (dir.length - k') ++ rel.names
  | _, _ => False

instance (dir : Location Name) (rel rel' : NormalPath Name) : Decidable (Rejoins dir rel rel') :=
  match rel, rel' with
  | ⟨.up k, names⟩, ⟨.up k', names'⟩ => inferInstanceAs (Decidable
      (k ≤ k' ∧ names' = (dir.take (dir.length - k)).drop (dir.length - k') ++ names))
  | ⟨.root, _⟩, _ => inferInstanceAs (Decidable False)
  | ⟨.up _, _⟩, ⟨.root, _⟩ => inferInstanceAs (Decidable False)

theorem normal_origin_of_relative {path : PathParts Name} (h : path.absolute = false) :
    ∃ k, path.normal.origin = .up k := by
  rw [PathParts.normal, start_of_relative h]
  exact NormalPath.foldl_push_origin path.elems rfl

theorem contains_append_iff_leadsBackTo (dir : NormalPath Name) {rel : PathParts Name}
    (h : rel.absolute = false) :
    dir.Contains (dir.append rel.normal) ↔ LeadsBackTo dir rel.normal := by
  obtain ⟨k, hk⟩ := normal_origin_of_relative h
  rw [NormalPath.contains_append_iff hk]
  constructor
  · intro hback
    exact ⟨k, hk, hback⟩
  · rintro ⟨k', hk', hback⟩
    rw [hk] at hk'
    cases hk'
    exact hback

/-- Two relative paths lead from a directory to one place exactly if one rejoins the other. -/
theorem names_append_eq_iff_rejoins (dir : Location Name) {rel rel' : PathParts Name}
    (h : rel.absolute = false) (h' : rel'.absolute = false) :
    ((⟨.root, dir⟩ : NormalPath Name).append rel.normal).names =
        ((⟨.root, dir⟩ : NormalPath Name).append rel'.normal).names ↔
      Rejoins dir rel.normal rel'.normal ∨ Rejoins dir rel'.normal rel.normal := by
  obtain ⟨k, hk⟩ := normal_origin_of_relative h
  obtain ⟨k', hk'⟩ := normal_origin_of_relative h'
  simp only [Rejoins, hk, hk']
  constructor
  · intro heq
    rcases Nat.le_total k k' with hle | hle
    · exact .inl ⟨hle, (NormalPath.names_append_eq_iff hk hk' hle).mp heq⟩
    · exact .inr ⟨hle, (NormalPath.names_append_eq_iff hk' hk hle).mp heq.symm⟩
  · rintro (⟨hle, hnames⟩ | ⟨hle, hnames⟩)
    · exact (NormalPath.names_append_eq_iff hk hk' hle).mpr hnames
    · exact ((NormalPath.names_append_eq_iff hk' hk hle).mpr hnames).symm

/-- A path lies at a directory or below it. -/
def Inside (cwd : Location Name) (dir path : Bytes) : Prop :=
  locate cwd (pathParts dir) <+: locate cwd (pathParts path)

instance (cwd : Location Name) (dir path : Bytes) : Decidable (Inside cwd dir path) :=
  inferInstanceAs (Decidable (locate cwd (pathParts dir) <+: locate cwd (pathParts path)))

/-- Read from a directory, a path leads to the directory or below it.  An absolute path has to
    name the directory, a relative one the part of it that it climbs out of. -/
def LeadsBelow (cwd : Location Name) (dir path : Bytes) : Prop :=
  match (pathParts path).normal.origin with
  | .root => locate cwd (pathParts dir) <+: (pathParts path).normal.names
  | .up k => (locate cwd (pathParts dir)).drop ((locate cwd (pathParts dir)).length - k) <+:
      (pathParts path).normal.names

theorem locate_of_absolute (cwd : Location Name) {path : Bytes}
    (h : (pathParts path).normal.origin = .root) :
    locate cwd (pathParts path) = (pathParts path).normal.names := by
  simp only [locate, NormalPath.append, h]

theorem locate_pathAppend (cwd : Location Name) (a : Bytes) {b : Bytes}
    (hb : b.head? ≠ some slash) :
    locate cwd (pathParts (pathAppend a b)) =
      ((⟨.root, locate cwd (pathParts a)⟩ : NormalPath Name).append
        (pathParts b).normal).names := by
  have hrelative : (pathParts b).absolute = false := by simp [pathParts, hb]
  rw [locate, normal_pathAppend a hb, append_locate cwd _ hrelative]

/-- A joined path lies inside its left operand exactly if the right one leads below it. -/
theorem inside_pathAppend_iff (cwd : Location Name) (dir path : Bytes) :
    Inside cwd dir (pathAppend dir path) ↔ LeadsBelow cwd dir path := by
  by_cases habsolute : path.head? = some slash
  · have hstart : (pathParts path).start.origin = .root := by
      simp [PathParts.start, pathParts, habsolute]
    have hroot : (pathParts path).normal.origin = .root := by
      rw [PathParts.normal]
      exact NormalPath.foldl_push_root hstart _
    rw [Inside, pathAppend, if_pos habsolute, locate_of_absolute cwd hroot]
    simp only [LeadsBelow, hroot]
  · have hrelative : (pathParts path).absolute = false := by simp [pathParts, habsolute]
    obtain ⟨k, hk⟩ := normal_origin_of_relative hrelative
    have hcontains := NormalPath.contains_append_iff (p := ⟨.root, locate cwd (pathParts dir)⟩) hk
    have hroot := NormalPath.append_root (p := ⟨.root, locate cwd (pathParts dir)⟩) rfl
      (pathParts path).normal
    simp only [NormalPath.Contains, hroot, true_and, true_or] at hcontains
    rw [Inside, locate_pathAppend cwd dir habsolute, hcontains]
    simp only [LeadsBelow, hk]

/-! ## Names under a path -/

theorem genTempDir_head (H : Sha256) (path : Bytes) : (genTempDir H path).head? = some slash := by
  rw [genTempDir, pathAppend]
  split
  next h => exact h
  next =>
    rw [if_neg (by decide)]
    rfl

theorem relText_head_ne {rel : Location Name} (h : ∀ n ∈ rel, ValidName n) :
    (relText rel).head? ≠ some slash := by
  cases rel with
  | nil => simp [relText]
  | cons n ns =>
    have hn := h n List.mem_cons_self
    have hhead : (relText (n :: ns)).head? = n.head? := by
      cases ns with
      | nil => rfl
      | cons m ms => simp [relText, List.head?_append_of_ne_nil n hn.ne_nil]
    rw [hhead]
    exact fun heq => hn.noSlash (List.mem_of_mem_head? heq)

theorem relText_getLast_ne {rel : Location Name} (h : ∀ n ∈ rel, ValidName n) :
    (relText rel).getLast? ≠ some slash := by
  induction rel with
  | nil => simp [relText]
  | cons n ns ih =>
    cases ns with
    | nil => exact fun heq => (h n List.mem_cons_self).noSlash (List.mem_of_getLast? heq)
    | cons m ms =>
      have htail := fun k hk => h k (List.mem_cons_of_mem n hk)
      have hne := relText_ne_nil htail (List.cons_ne_nil m ms)
      rw [relText, List.getLast?_append_of_ne_nil _ hne]
      · exact ih htail
      · simp

theorem pathParts_relText {rel : Location Name} (h : ∀ n ∈ rel, ValidName n) :
    pathParts (relText rel) = ⟨false, rel.map .name⟩ := by
  have helems : rel.map pathElem = rel.map PathElem.name := by
    apply List.map_congr_left
    intro n hn
    exact pathElem_of_notDots (h n hn).notDots
  simp [pathParts, relText_head_ne h, relText_getLast_ne h, pathComponents_relText h, helems]

theorem resolvesNames_locate (cwd : Location Name) :
    ResolvesNames fun path => locate cwd (pathParts path) := by
  intro path rel h
  simp only [locate_pathAppend cwd path (relText_head_ne h), pathParts_relText h,
    PathParts.normal_names]
  simp [NormalPath.append, NormalPath.climb]

/-- Joining texts is joining paths. -/
theorem pathParts_pathAppend (a : Bytes) {b : Bytes} (hb : b.head? ≠ some slash) (hne : b ≠ []) :
    pathParts (pathAppend a b) = (pathParts a).append (pathParts b) := by
  have hname : ∀ name : Name, pathElem name ≠ .empty := by
    intro name
    unfold pathElem
    split
    · simp
    · split <;> simp
  have hdrop : PathParts.dropSlash (pathParts a).elems = (pathComponents a).map pathElem := by
    have hlast : ((pathComponents a).map pathElem).getLast? ≠ some .empty := by
      rw [List.getLast?_map]
      cases (pathComponents a).getLast? with
      | none => simp
      | some name => simpa using hname name
    simp only [pathParts, PathParts.dropSlash]
    split
    · simp
    · rw [List.append_nil, if_neg hlast]
  obtain ⟨c, rest, rfl⟩ := List.exists_cons_of_ne_nil hne
  have hc : c ≠ slash := by simpa using hb
  have hcomponents : pathComponents (c :: rest) ≠ [] :=
    pathComponents_ne_nil List.mem_cons_self hc
  have hlast : (pathAppend a (c :: rest)).getLast? = (c :: rest).getLast? := by
    rw [pathAppend, if_neg hb]
    split <;> exact List.getLast?_append_of_ne_nil _ (List.cons_ne_nil c rest)
  have hrelative : (pathParts (c :: rest)).absolute = false := by simp [pathParts, hc]
  have helems : (pathParts (c :: rest)).elems ≠ [] := by simp [pathParts, hcomponents]
  rw [PathParts.append, if_neg (by simp [hrelative]), if_neg helems, hdrop,
    ← absolute_pathAppend a hb]
  simp [pathParts, pathComponents_pathAppend a hb, hlast, hcomponents]

end TrustFlow.Proxy
