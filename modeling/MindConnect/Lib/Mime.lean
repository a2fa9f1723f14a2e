import MindConnect.Lib.Http1
import Mathlib.Data.List.Infix

/-!
# Multipart bodies

A reference splitter for the multipart bodies of RFC 2046. A delimiter is a CRLF, two dashes and the boundary;
what is before the first one and behind the closing one is dropped. A part has fields up to the empty line, and
its content behind it. `splitNested` splits a body, and each part again with the boundary that its content type
announces.

`Quiet` says that a text goes by a delimiter unnoticed. As a delimiter has its CR at its start only, a text is
quiet if each piece of it from one CR up to the next is (`quiet_append`).
-/

namespace Mime

open Http1 (crlf)

/-! ## The first occurrence -/

section

variable {α : Type} {d d' s t : List α} {x : α}

/-- `d` does not occur in `s`. -/
def Quiet (d s : List α) : Prop := ¬ d <:+: s

theorem quiet_cons_iff {y : α} : Quiet d (y :: s) ↔ ¬ d <+: y :: s ∧ Quiet d s := by
  unfold Quiet
  rw [List.infix_cons_iff, not_or]

/-- What starts before an `x` and has none in it ends before it. -/
theorem prefix_of_prefix_append (hx : x ∉ d') (h : d' <+: s ++ x :: t) : d' <+: s := by
  rcases Nat.le_total d'.length s.length with hle | hle
  · exact List.prefix_of_prefix_length_le h (List.prefix_append s _) hle
  · obtain ⟨rest, rfl⟩ := List.prefix_of_prefix_length_le (List.prefix_append s (x :: t)) h hle
    cases rest with
    | nil => simp
    | cons y rest =>
      obtain ⟨post, hpost⟩ := h
      rw [List.append_assoc] at hpost
      obtain ⟨rfl, -⟩ := List.cons.inj (List.append_cancel_left hpost)
      exact absurd (by simp) hx

theorem not_prefix_append {y : α} (hx : x ∉ d') (hs : Quiet (x :: d') (y :: s)) :
    ¬ x :: d' <+: y :: (s ++ x :: t) := by
  intro h
  obtain ⟨rfl, hd'⟩ := List.cons_prefix_cons.1 h
  exact (quiet_cons_iff.1 hs).1 (List.cons_prefix_cons.2 ⟨rfl, prefix_of_prefix_append hx hd'⟩)

/-- An occurrence of `x :: d'` starts at an `x`, and lies before the next one. -/
theorem quiet_append (hx : x ∉ d') (hs : Quiet (x :: d') s) (ht : Quiet (x :: d') (x :: t)) :
    Quiet (x :: d') (s ++ x :: t) := by
  induction s with
  | nil => exact ht
  | cons y s ih => exact quiet_cons_iff.2 ⟨not_prefix_append hx hs, ih (quiet_cons_iff.1 hs).2⟩

theorem quiet_of_not_mem (hx : x ∉ s) : Quiet (x :: d') s := fun h => hx (h.subset List.mem_cons_self)

theorem quiet_append_of_not_mem (hx : x ∉ s) (ht : Quiet (x :: d') t) : Quiet (x :: d') (s ++ t) := by
  induction s with
  | nil => exact ht
  | cons y s ih =>
    obtain ⟨hy, hs⟩ := not_or.1 (mt List.mem_cons.2 hx)
    exact quiet_cons_iff.2 ⟨fun hp => hy (List.cons_prefix_cons.1 hp).1, ih hs⟩

/-- A piece that starts with `x` and has no other. -/
theorem quiet_cons (hx : x ∉ s) (h : ¬ d' <+: s) : Quiet (x :: d') (x :: s) :=
  quiet_cons_iff.2 ⟨fun hp => h (List.cons_prefix_cons.1 hp).2, quiet_of_not_mem hx⟩

variable [DecidableEq α]

/-- What is before the first occurrence of `d` and what is behind it. -/
def breakOn (d : List α) : List α → Option (List α × List α)
  | [] => if d = [] then some ([], []) else none
  | x :: xs =>
    if d <+: x :: xs then some ([], (x :: xs).drop d.length)
    else (breakOn d xs).map fun r => (x :: r.1, r.2)

theorem breakOn_append (hx : x ∉ d') (hs : Quiet (x :: d') s) (rest : List α) :
    breakOn (x :: d') (s ++ (x :: d' ++ rest)) = some (s, rest) := by
  induction s with
  | nil =>
    have hp : x :: d' <+: x :: (d' ++ rest) := List.prefix_append (x :: d') rest
    rw [List.nil_append, List.cons_append, breakOn, if_pos hp]
    simp
  | cons y s ih =>
    have hp : ¬ x :: d' <+: y :: (s ++ (x :: d' ++ rest)) := not_prefix_append hx hs
    rw [List.cons_append, breakOn, if_neg hp, ih (quiet_cons_iff.1 hs).2]
    rfl

end

/-! ## Parts -/

def dashes : Bytes := ascii "--"

def delimiter (boundary : Bytes) : Bytes := crlf ++ (dashes ++ boundary)

/-- Behind a delimiter: two dashes close the body; otherwise the line ends, and a part goes up to the next
delimiter. At most `fuel` delimiters. -/
def partsBehind (boundary : Bytes) : Nat → Bytes → Option (List Bytes)
  | 0, _ => none
  | fuel + 1, s =>
    if dashes <+: s then some []
    else do
      let (padding, s) ← breakOn crlf s
      if padding.all Http1.isBlank then do
        let (part, s) ← breakOn (delimiter boundary) s
        let parts ← partsBehind boundary fuel s
        return part :: parts
      else none

/-- The parts of a body. The first delimiter may be without its CRLF if nothing is before it. -/
def split (boundary body : Bytes) : Option (List Bytes) := do
  let (_, s) ← breakOn (delimiter boundary) (crlf ++ body)
  partsBehind boundary (s.length + 1) s

/-- A blank behind the colon does not belong to the value. -/
def field (line : Bytes) : Option (Bytes × Bytes) :=
  (Http1.splitAt 58 line).map fun r => (r.1, if r.2.head? = some 32 then r.2.tail else r.2)

/-- Fields up to the empty line, and the content; at most `fuel` lines. -/
def entity : Nat → Bytes → Option (List (Bytes × Bytes) × Bytes)
  | 0, _ => none
  | fuel + 1, s => do
    let (line, s) ← breakOn crlf s
    if line = [] then return ([], s)
    else do
      let f ← field line
      let (fields, content) ← entity fuel s
      return (f :: fields, content)

/-- The content type of a part and its content. -/
def typed (part : Bytes) : Option (Bytes × Bytes) := do
  let (fields, content) ← entity (part.length + 1) part
  let type ← (Http1.valuesOf (ascii "Content-Type") fields).head?
  return (type, content)

/-- The boundary that a content type announces, as its first parameter. -/
def boundaryParameter (type : Bytes) : Option Bytes := do
  let (_, parameters) ← Http1.splitAt 59 type
  let (name, value) ← Http1.splitAt 61 parameters
  if Http1.same (Http1.trim name) (ascii "boundary") then return Http1.trim (value.takeWhile (· != 59)) else none

def splitTyped (boundary body : Bytes) : Option (List (Bytes × Bytes)) := do
  let parts ← split boundary body
  parts.mapM typed

def splitNested (boundary body : Bytes) : Option (List (List (Bytes × Bytes))) := do
  let parts ← splitTyped boundary body
  parts.mapM fun (type, content) => do
    let sub ← boundaryParameter type
    splitTyped sub content

/-! ## Splitting what was joined -/

/-- A part behind its delimiter line. -/
def delimited (boundary part : Bytes) : Bytes := dashes ++ boundary ++ (crlf ++ part ++ crlf)

def joined (boundary : Bytes) (parts : List Bytes) : Bytes :=
  parts.flatMap (delimited boundary) ++ (dashes ++ boundary ++ dashes)

/-- A part with nothing but its type. -/
def typedPart (type content : Bytes) : Bytes := ascii "Content-Type: " ++ (type ++ (crlf ++ (crlf ++ content)))

/-- What is behind the first delimiter. -/
def behind (boundary : Bytes) : List Bytes → Bytes
  | [] => dashes
  | part :: parts => crlf ++ (part ++ (delimiter boundary ++ behind boundary parts))

variable {b b' : Bytes} {parts : List Bytes}

theorem crlf_joined (b : Bytes) (parts : List Bytes) : crlf ++ joined b parts = delimiter b ++ behind b parts := by
  induction parts with
  | nil => simp [joined, delimiter, behind]
  | cons part parts ih =>
    have hstep : joined b (part :: parts) = dashes ++ b ++ (crlf ++ part ++ (crlf ++ joined b parts)) := by
      simp [joined, delimited]
    rw [hstep, ih]
    simp [delimiter, behind]

theorem not_mem_delimiter (hcr : 13 ∉ b) : 13 ∉ 10 :: (dashes ++ b) := by
  have hdashes : 13 ∉ dashes := by decide
  simp [hdashes, hcr]

/-- Piece by piece, each from its CRLF on. -/
theorem quiet_pieces (hcr : 13 ∉ b) {s t : Bytes} (hs : Quiet (delimiter b) s)
    (ht : Quiet (delimiter b) (crlf ++ t)) : Quiet (delimiter b) (s ++ (crlf ++ t)) :=
  quiet_append (not_mem_delimiter hcr) hs ht

/-- The delimiter of another boundary of the same length. -/
theorem quiet_delimiter (hcr : 13 ∉ b') (hlen : b.length = b'.length) (hne : b ≠ b') {rest : Bytes}
    (hrest : 13 ∉ rest) : Quiet (delimiter b) (crlf ++ (dashes ++ b' ++ rest)) := by
  have hmem : 13 ∉ 10 :: (dashes ++ b' ++ rest) := by
    have hdashes : 13 ∉ dashes := by decide
    simp [hdashes, hcr, hrest]
  refine quiet_cons hmem fun hp => hne ?_
  obtain ⟨post, hpost⟩ := hp
  have hpost : 10 :: (dashes ++ (b ++ post)) = 10 :: (dashes ++ (b' ++ rest)) := by simpa using hpost
  exact (List.append_inj (List.append_cancel_left (List.cons.inj hpost).2) hlen).1

theorem quiet_joined (hcr : 13 ∉ b) (hcr' : 13 ∉ b') (hlen : b.length = b'.length) (hne : b ≠ b')
    (hparts : ∀ p ∈ parts, Quiet (delimiter b) (crlf ++ p)) : Quiet (delimiter b) (crlf ++ joined b' parts) := by
  have hdelimiter : Quiet (delimiter b) (delimiter b') := by
    have h := quiet_delimiter hcr' hlen hne List.not_mem_nil
    rwa [List.append_nil] at h
  rw [crlf_joined]
  induction parts with
  | nil => simpa [behind, delimiter] using quiet_delimiter hcr' hlen hne (by decide : 13 ∉ dashes)
  | cons part parts ih =>
    have hrest := ih fun p hp => hparts p (List.mem_cons_of_mem _ hp)
    have hpart : Quiet (delimiter b) (crlf ++ (part ++ (delimiter b' ++ behind b' parts))) := by
      rw [← List.append_assoc]
      exact quiet_pieces hcr (hparts part List.mem_cons_self) hrest
    exact quiet_pieces hcr hdelimiter hpart

theorem quiet_typedPart (hcr : 13 ∉ b) {type content : Bytes} (htype : Quiet crlf type)
    (hcontent : Quiet (delimiter b) (crlf ++ content)) :
    Quiet (delimiter b) (crlf ++ typedPart type content) := by
  have hcrlf : Quiet (delimiter b) crlf := quiet_cons (by decide) (by simp [dashes, ascii])
  have hline : Quiet (delimiter b) (crlf ++ (ascii "Content-Type: " ++ type)) := by
    refine quiet_cons_iff.2 ⟨fun hp => ?_, ?_⟩
    · obtain ⟨-, hp⟩ := List.cons_prefix_cons.1 hp
      obtain ⟨-, hp⟩ := List.cons_prefix_cons.1 hp
      obtain ⟨hp, -⟩ := List.cons_prefix_cons.1 hp
      exact absurd hp (by decide)
    · -- what has no CRLF has no delimiter
      have hquiet : Quiet (delimiter b) type := fun h =>
        htype ((List.prefix_append crlf (dashes ++ b)).isInfix.trans h)
      have hname : 13 ∉ 10 :: ascii "Content-Type: " := by decide
      have hline := quiet_append_of_not_mem hname hquiet
      exact hline
  have hrest := quiet_pieces hcr hline (quiet_pieces hcr hcrlf hcontent)
  simpa [typedPart] using hrest

theorem breakOn_crlf {line : Bytes} (h : Quiet crlf line) (rest : Bytes) :
    breakOn crlf (line ++ (crlf ++ rest)) = some (line, rest) :=
  breakOn_append (by decide) h rest

theorem breakOn_delimiter (hcr : 13 ∉ b) {part : Bytes} (h : Quiet (delimiter b) part) (rest : Bytes) :
    breakOn (delimiter b) (part ++ (delimiter b ++ rest)) = some (part, rest) :=
  breakOn_append (not_mem_delimiter hcr) h rest

theorem quiet_nil (d : Bytes) (hd : d ≠ []) : Quiet d [] := fun h => hd (List.infix_nil.1 h)

theorem partsBehind_behind (hcr : 13 ∉ b) (hparts : ∀ p ∈ parts, Quiet (delimiter b) p) {fuel : Nat}
    (hfuel : parts.length < fuel) (epilogue : Bytes) :
    partsBehind b fuel (behind b parts ++ epilogue) = some parts := by
  induction parts generalizing fuel with
  | nil =>
    obtain ⟨fuel, rfl⟩ := Nat.exists_eq_add_of_lt hfuel
    have hp : dashes <+: behind b [] ++ epilogue := List.prefix_append _ _
    rw [List.length_nil, Nat.zero_add, partsBehind, if_pos hp]
  | cons part parts ih =>
    obtain ⟨fuel, rfl⟩ : ∃ n, fuel = n + 1 := ⟨fuel - 1, by omega⟩
    have hrest := ih (fun p hp => hparts p (List.mem_cons_of_mem _ hp)) (Nat.lt_of_succ_lt_succ hfuel)
    have hp : ¬ dashes <+: behind b (part :: parts) ++ epilogue := fun hp =>
      absurd (List.cons_prefix_cons.1 hp).1 (by decide)
    have hline : breakOn crlf (behind b (part :: parts) ++ epilogue) =
        some ([], part ++ (delimiter b ++ (behind b parts ++ epilogue))) := by
      have h := breakOn_crlf (quiet_nil crlf (by decide)) (part ++ (delimiter b ++ (behind b parts ++ epilogue)))
      simpa only [behind, List.append_assoc, List.nil_append] using h
    have hpart : breakOn (delimiter b) (part ++ (delimiter b ++ (behind b parts ++ epilogue))) =
        some (part, behind b parts ++ epilogue) :=
      breakOn_delimiter hcr (hparts part List.mem_cons_self) _
    rw [partsBehind, if_neg hp, hline]
    simp only [bind, Option.bind, List.all_nil, if_true, hpart, hrest]
    rfl

theorem length_parts_le (b : Bytes) (parts : List Bytes) : parts.length ≤ (behind b parts).length := by
  induction parts with
  | nil => simp
  | cons part parts ih =>
    simp only [behind, List.length_cons, List.length_append]
    have : 0 < crlf.length := by decide
    omega

theorem split_joined (hcr : 13 ∉ b) (hparts : ∀ p ∈ parts, Quiet (delimiter b) p) (epilogue : Bytes) :
    split b (joined b parts ++ epilogue) = some parts := by
  have hfirst : breakOn (delimiter b) (crlf ++ (joined b parts ++ epilogue)) =
      some ([], behind b parts ++ epilogue) := by
    rw [← List.append_assoc, crlf_joined, List.append_assoc]
    exact breakOn_delimiter hcr (quiet_nil (delimiter b) (List.cons_ne_nil _ _)) _
  rw [split, hfirst]
  refine partsBehind_behind hcr hparts ?_ epilogue
  have := length_parts_le b parts
  rw [List.length_append]
  omega

theorem typed_typedPart {type : Bytes} (htype : Quiet crlf type) (content : Bytes) :
    typed (typedPart type content) = some (type, content) := by
  have hname : 13 ∉ ascii "Content-Type: " := by decide
  have hline : breakOn crlf (typedPart type content) = some (ascii "Content-Type: " ++ type, crlf ++ content) := by
    rw [typedPart, ← List.append_assoc]
    exact breakOn_crlf (quiet_append_of_not_mem hname htype) _
  have hempty : breakOn crlf (crlf ++ content) = some ([], content) :=
    breakOn_crlf (quiet_nil crlf (by decide)) content
  have hfield : field (ascii "Content-Type: " ++ type) = some (ascii "Content-Type", type) := by
    have hcolon : ascii "Content-Type: " ++ type = ascii "Content-Type" ++ 58 :: (32 :: type) := by
      simp [ascii]
    rw [field, hcolon, Http1.splitAt_append (by decide)]
    rfl
  have hentity : entity ((typedPart type content).length + 1) (typedPart type content) =
      some ([(ascii "Content-Type", type)], content) := by
    obtain ⟨fuel, hfuel⟩ : ∃ n, (typedPart type content).length = n + 1 := ⟨_, rfl⟩
    rw [hfuel, entity, hline]
    simp only [bind, Option.bind]
    rw [if_neg (by simp [ascii]), hfield, entity, hempty]
    rfl
  rw [typed, hentity]
  rfl

theorem mapM_map_eq_some {α β γ : Type} {f : α → Option γ} {g : β → α} {k : β → γ} {ys : List β}
    (h : ∀ y ∈ ys, f (g y) = some (k y)) : (ys.map g).mapM f = some (ys.map k) := by
  induction ys with
  | nil => rfl
  | cons y ys ih =>
    rw [List.map_cons, List.mapM_cons, h y List.mem_cons_self, ih fun y hy => h y (List.mem_cons_of_mem _ hy)]
    rfl

/-- A body of parts with a content type each. -/
def typedBody (boundary : Bytes) (contents : List (Bytes × Bytes)) : Bytes :=
  joined boundary (contents.map fun c => typedPart c.1 c.2)

/-- The content does not show the delimiter, also not right at its start, and the type stays on its line. -/
def Frames (b : Bytes) (content : Bytes × Bytes) : Prop :=
  Quiet crlf content.1 ∧ Quiet (delimiter b) (crlf ++ content.2)

theorem Frames.typedPart (hcr : 13 ∉ b) {content : Bytes × Bytes} (h : Frames b content) :
    Quiet (delimiter b) (crlf ++ typedPart content.1 content.2) := quiet_typedPart hcr h.1 h.2

theorem Quiet.of_append {d s t : Bytes} (h : Quiet d (s ++ t)) : Quiet d t :=
  fun hd => h (hd.trans (List.suffix_append s t).isInfix)

theorem splitTyped_typedBody (hcr : 13 ∉ b) {contents : List (Bytes × Bytes)} (h : ∀ c ∈ contents, Frames b c)
    (epilogue : Bytes) : splitTyped b (typedBody b contents ++ epilogue) = some contents := by
  have hparts : ∀ p ∈ contents.map fun c => typedPart c.1 c.2, Quiet (delimiter b) p := by
    intro p hp
    obtain ⟨c, hc, rfl⟩ := List.mem_map.1 hp
    exact ((h c hc).typedPart hcr).of_append
  have htyped := mapM_map_eq_some (k := id) fun c hc => typed_typedPart (h c hc).1 c.2
  rw [splitTyped, typedBody, split_joined hcr hparts]
  simpa using htyped

/-- A part that is a body. -/
structure Nested where
  type : Bytes
  boundary : Bytes
  parts : List (Bytes × Bytes)

def Nested.body (n : Nested) : Bytes := typedBody n.boundary n.parts

structure Nested.Frames (b : Bytes) (n : Nested) : Prop where
  announced : boundaryParameter n.type = some n.boundary
  line : Quiet crlf n.type
  no_cr : 13 ∉ n.boundary
  length : b.length = n.boundary.length
  ne : b ≠ n.boundary
  outer : ∀ c ∈ n.parts, Mime.Frames b c
  inner : ∀ c ∈ n.parts, Mime.Frames n.boundary c

theorem Nested.Frames.content (hcr : 13 ∉ b) {n : Nested} (h : n.Frames b) : Mime.Frames b (n.type, n.body) := by
  refine ⟨h.line, quiet_joined hcr h.no_cr h.length h.ne fun p hp => ?_⟩
  obtain ⟨c, hc, rfl⟩ := List.mem_map.1 hp
  exact (h.outer c hc).typedPart hcr

/-- A body whose parts are bodies, each with the boundary that its type announces. -/
theorem splitNested_typedBody (hcr : 13 ∉ b) {nested : List Nested} (h : ∀ n ∈ nested, n.Frames b)
    (epilogue : Bytes) : splitNested b (typedBody b (nested.map fun n => (n.type, n.body)) ++ epilogue) =
      some (nested.map Nested.parts) := by
  have hcontents : ∀ c ∈ nested.map fun n => (n.type, n.body), Frames b c := by
    intro c hc
    obtain ⟨n, hn, rfl⟩ := List.mem_map.1 hc
    exact (h n hn).content hcr
  rw [splitNested, splitTyped_typedBody hcr hcontents]
  refine mapM_map_eq_some fun n hn => ?_
  have hinner := splitTyped_typedBody (h n hn).no_cr (h n hn).inner []
  rw [List.append_nil] at hinner
  simp only [(h n hn).announced, bind, Option.bind, Nested.body, hinner]

end Mime
