/-
# Dns.Wire — what the octets of a name mean, and that `parse_name` computes it

`NameAt b p labels q j` is the wire meaning of a name without any algorithm:
starting at offset `p` of `b` and following `j` compression pointers one meets
the labels `labels` and then the root, and the octets that belong to the name
itself end at `q` (behind the first pointer, if there is one).

* `parseName_eq_ok_iff`: `parse_name` succeeds exactly where a name of UTF-8
  labels stands that takes at most 64 jumps, and gives its dotted form;
* `reads_serializeName`: what `serialize_name` writes is such a name, for every
  string whose parts between dots are shorter than a pointer octet.
-/
import DnsLigase.Dns.Name
import DnsLigase.Theory.Text

namespace DnsLigase.Dns

open DnsLigase.Theory
open DnsLigase.Theory.Cursor DnsLigase.Theory.Io DnsLigase.Theory.Utf8

set_option autoImplicit false

/-! ## Names in a buffer -/

/-- The name at offset `p` of `b`: its labels, the offset behind it, its jumps. -/
inductive NameAt (b : List UInt8) : Nat → List (List UInt8) → Nat → Nat → Prop
  | root {p : Nat} : b[p]? = some 0 → NameAt b p [] (p + 1) 0
  | label {p q j : Nat} {n : UInt8} {labels : List (List UInt8)} :
      b[p]? = some n → n ≠ 0 → n.toNat < 192 → p + 1 + n.toNat ≤ b.length →
      NameAt b (p + 1 + n.toNat) labels q j →
      NameAt b p ((b.drop (p + 1)).take n.toNat :: labels) q j
  | pointer {p q j : Nat} {high low : UInt8} {labels : List (List UInt8)} :
      b[p]? = some high → 192 ≤ high.toNat → b[p + 1]? = some low →
      pointerTarget high low < b.length →
      NameAt b (pointerTarget high low) labels q j →
      NameAt b p labels (p + 2) (j + 1)

namespace NameAt

variable {b : List UInt8} {p q j : Nat} {labels : List (List UInt8)}

/-- The octets at an offset determine the name there. -/
theorem unique (name : NameAt b p labels q j) {labels' : List (List UInt8)} {q' j' : Nat}
    (name' : NameAt b p labels' q' j') : labels = labels' ∧ q = q' ∧ j = j' := by
  induction name generalizing labels' q' j' with
  | root here =>
      cases name' with
      | root => exact ⟨rfl, rfl, rfl⟩
      | label here' nonzero => simp_all
      | pointer here' high => simp_all
  | label here nonzero short fits _ ih =>
      cases name' with
      | root here' => simp_all
      | label here' nonzero' short' fits' rest' =>
          obtain rfl := Option.some.inj (here.symm.trans here')
          obtain ⟨rfl, rfl, rfl⟩ := ih rest'
          exact ⟨rfl, rfl, rfl⟩
      | pointer here' high =>
          obtain rfl := Option.some.inj (here.symm.trans here')
          omega
  | pointer here high next _ _ ih =>
      cases name' with
      | root here' =>
          obtain rfl := Option.some.inj (here.symm.trans here')
          exact absurd high (by decide)
      | label here' nonzero' short' =>
          obtain rfl := Option.some.inj (here.symm.trans here')
          omega
      | pointer here' high' next' _ rest' =>
          obtain rfl := Option.some.inj (here.symm.trans here')
          obtain rfl := Option.some.inj (next.symm.trans next')
          obtain ⟨rfl, -, rfl⟩ := ih rest'
          exact ⟨rfl, rfl, rfl⟩

/-- Every label met has between 1 and 191 octets. -/
theorem label_length (name : NameAt b p labels q j) :
    ∀ l ∈ labels, 0 < l.length ∧ l.length < 192 := by
  induction name with
  | root => simp
  | @label p q j n labels here nonzero short fits _ ih =>
      intro l member
      rcases List.mem_cons.mp member with rfl | member
      · have positive : n.toNat ≠ 0 := fun zero => nonzero (UInt8.toNat_inj.mp zero)
        simp only [List.length_take, List.length_drop]
        omega
      · exact ih l member
  | pointer _ _ _ _ _ ih => exact ih

/-- A name ends inside the buffer and behind its start. -/
theorem bounds (name : NameAt b p labels q j) : p < q ∧ q ≤ b.length := by
  induction name with
  | root here =>
      have := (List.getElem?_eq_some_iff.mp here).1
      omega
  | label _ _ _ _ _ ih => omega
  | pointer _ _ next _ _ _ =>
      have := (List.getElem?_eq_some_iff.mp next).1
      omega

end NameAt

/-! ## `parse_name` computes the wire meaning -/

/-- From a state in front of a name the loop runs to its end. -/
theorem ends_of_nameAt {b : List UInt8} {p q j : Nat} {labels : List (List UInt8)}
    (name : NameAt b p labels q j) :
    ∀ (s : NameState) (texts : List String), s.pos = p → labels = texts.map utf8 →
      s.jumps + j ≤ maxJumps →
      Loop.Ends (nameBody b) s
        (.ok (joinDots (s.labels ++ texts), if s.jumped then s.jumpPos else q)) := by
  induction name with
  | root here =>
      rintro s texts rfl spelled -
      obtain rfl := List.map_eq_nil_iff.mp spelled.symm
      exact .of_break (nameBody_eq_ok.mpr ⟨here, by simp⟩)
  | @label p q j n labels here nonzero short fits _ ih =>
      rintro s texts rfl spelled room
      obtain ⟨text, texts, rfl, decoded, spelled⟩ := List.map_eq_cons_iff.mp spelled.symm
      have rest := ih (s.label n.toNat text) texts rfl spelled.symm room
      simp only [NameState.label, List.append_assoc, List.singleton_append] at rest
      exact .of_continue (nameBody_eq_inl.mpr (.inl ⟨n, text, here, nonzero, short, fits,
        fromUtf8_eq_some.mpr decoded, rfl⟩)) rest
  | @pointer p q j high low labels here pointer next target _ ih =>
      rintro s texts rfl spelled room
      have rest := ih (s.jump (pointerTarget high low)) texts rfl spelled
        (by simp only [NameState.jump]; omega)
      simp only [NameState.jump, if_true] at rest
      exact .of_continue (nameBody_eq_inl.mpr (.inr ⟨high, low, here, pointer, next, target,
        by omega, rfl⟩)) rest

/-- A loop that ends with success has walked along a name. -/
theorem nameAt_of_run {b : List UInt8} : ∀ (fuel : Nat) (s : NameState) (out : String × Nat),
    s.jumps ≤ maxJumps → Loop.run (nameBody b) fuel s = some (.ok out) →
    ∃ texts q j, NameAt b s.pos (texts.map utf8) q j ∧ s.jumps + j ≤ maxJumps ∧
      out = (joinDots (s.labels ++ texts), if s.jumped then s.jumpPos else q)
  | 0, _, _, _, reached => by simp [Loop.run] at reached
  | fuel + 1, s, out, started, reached => by
      cases h : nameBody b s with
      | inr r =>
          rw [Loop.run_of_break fuel h, Option.some.injEq] at reached
          obtain ⟨here, rfl⟩ := nameBody_eq_ok.mp (reached ▸ h)
          exact ⟨[], _, _, .root here, by omega, by simp⟩
      | inl s' =>
          rw [Loop.run_of_continue fuel h] at reached
          rcases nameBody_eq_inl.mp h with
            ⟨n, text, here, nonzero, short, fits, decoded, rfl⟩ |
            ⟨high, low, here, pointer, next, target, room, rfl⟩
          · obtain ⟨texts, q, j, rest, jumps, rfl⟩ :=
              nameAt_of_run fuel (s.label n.toNat text) out started reached
            refine ⟨text :: texts, q, j, ?_, jumps, ?_⟩
            · rw [List.map_cons, fromUtf8_eq_some.mp decoded]
              exact .label here nonzero short fits rest
            · simp only [NameState.label, List.append_assoc]
              rfl
          · obtain ⟨texts, q, j, rest, jumps, rfl⟩ :=
              nameAt_of_run fuel _ out (by simp only [NameState.jump]; omega) reached
            refine ⟨texts, s.pos + 2, j + 1, .pointer here pointer next target rest, ?_, ?_⟩
            · simp only [NameState.jump] at jumps
              omega
            · simp [NameState.jump]

/-- **`parse_name` succeeds exactly where a name of UTF-8 labels stands that takes
at most 64 jumps**; it gives the labels joined by dots and stops behind the name. -/
theorem parseName_eq_ok_iff {b : List UInt8} {p p' : Nat} {name : String} :
    parseName b p = .ok (name, p') ↔
      ∃ labels j, NameAt b p (labels.map utf8) p' j ∧ j ≤ maxJumps ∧ name = joinDots labels := by
  constructor
  · intro parsed
    have reached := parseName_run b p
    rw [parsed] at reached
    obtain ⟨texts, q, j, at_, jumps, out⟩ :=
      nameAt_of_run _ _ _ (Nat.zero_le _) reached
    simp only [NameState.start, Bool.false_eq_true, if_false, List.nil_append, Prod.mk.injEq]
      at out at_
    obtain ⟨rfl, rfl⟩ := out
    exact ⟨texts, j, at_, by simpa [NameState.start] using jumps, rfl⟩
  · rintro ⟨labels, j, at_, jumps, rfl⟩
    apply parseName_eq_iff.mpr
    simpa [NameState.start] using
      ends_of_nameAt at_ (NameState.start p) labels rfl rfl (by simpa [NameState.start] using jumps)

/-- A name that was parsed ends inside the buffer and behind its start. -/
theorem parseName_bounds {b : List UInt8} {p p' : Nat} {name : String}
    (parsed : parseName b p = .ok (name, p')) : p < p' ∧ p' ≤ b.length := by
  obtain ⟨labels, j, standing, -⟩ := parseName_eq_ok_iff.mp parsed
  exact standing.bounds

/-! ## Names as `serialize_name` writes them -/

/-- A label that dotted form and wire form agree about: it has octets, none of
them a dot, and too few for its length octet to look like a pointer. -/
structure Label where
  text : String
  nonempty : text ≠ ""
  dotFree : '.' ∉ text.toList
  short : (utf8 text).length < 192

/-- The empty root, or labels joined by dots. -/
def ProperName (name : String) : Prop :=
  ∃ labels : List Label, name = joinDots (labels.map Label.text)

/-- Every part between the dots fits a length octet that is not a pointer. -/
def ShortPieces (name : String) : Prop := ∀ part ∈ pieces name, (utf8 part).length < 192

theorem toList_joinDots (labels : List String) :
    (joinDots labels).toList = ['.'].intercalate (labels.map String.toList) := by
  simp [joinDots]

/-- A part is non-empty, has no dot, and is found in the name. -/
theorem of_mem_pieces {name part : String} (member : part ∈ pieces name) :
    part ≠ "" ∧ '.' ∉ part.toList ∧ part.toList.Sublist name.toList := by
  simp only [pieces, splitDots, List.mem_filter, List.mem_map, decide_eq_true_eq] at member
  obtain ⟨⟨cs, found, rfl⟩, nonempty⟩ := member
  rw [String.toList_ofList]
  exact ⟨nonempty, Text.not_mem_of_mem_splitOn found, Text.sublist_of_mem_splitOn found⟩

@[simp] theorem joinDots_splitDots (name : String) : joinDots (splitDots name) = name := by
  rw [splitDots, joinDots, List.map_map]
  simp

theorem splitDots_joinDots {labels : List String} (nonempty : labels ≠ []) :
    splitDots (joinDots labels) = labels.flatMap splitDots := by
  unfold splitDots
  rw [toList_joinDots, Text.splitOn_intercalate_any (by simpa using nonempty)]
  simp [List.flatMap_map, List.map_flatMap]

theorem splitDots_of_label {label : String} (dotFree : '.' ∉ label.toList) :
    splitDots label = [label] := by
  simp [splitDots, List.splitOn_eq_singleton dotFree]

/-- The parts of joined labels are the parts of the labels. -/
theorem pieces_joinDots (labels : List String) :
    pieces (joinDots labels) = labels.flatMap pieces := by
  cases labels with
  | nil => rfl
  | cons first rest =>
      unfold pieces
      rw [splitDots_joinDots (List.cons_ne_nil _ _), List.filter_flatMap]

theorem pieces_of_label {label : String} (nonempty : label ≠ "") (dotFree : '.' ∉ label.toList) :
    pieces label = [label] := by
  simp [pieces, splitDots_of_label dotFree, nonempty]

/-- Joining loses nothing of labels that have octets and no dot. -/
theorem pieces_joinDots_labels {labels : List String}
    (whole : ∀ l ∈ labels, l ≠ "" ∧ '.' ∉ l.toList) : pieces (joinDots labels) = labels := by
  rw [pieces_joinDots]
  induction labels with
  | nil => rfl
  | cons label rest ih =>
      obtain ⟨nonempty, dotFree⟩ := whole label List.mem_cons_self
      rw [List.flatMap_cons, pieces_of_label nonempty dotFree,
        ih fun l member => whole l (List.mem_cons_of_mem _ member)]
      rfl

theorem Label.whole (labels : List Label) :
    ∀ l ∈ labels.map Label.text, l ≠ "" ∧ '.' ∉ l.toList :=
  List.forall_mem_map.mpr fun label _ => ⟨label.nonempty, label.dotFree⟩

theorem ProperName.dropEmpty {name : String} (proper : ProperName name) :
    dropEmpty name = name := by
  obtain ⟨labels, rfl⟩ := proper
  rw [Dns.dropEmpty, pieces_joinDots_labels (Label.whole labels)]

theorem ProperName.shortPieces {name : String} (proper : ProperName name) :
    ShortPieces name := by
  obtain ⟨labels, rfl⟩ := proper
  intro part member
  rw [pieces_joinDots_labels (Label.whole labels)] at member
  obtain ⟨label, -, rfl⟩ := List.mem_map.mp member
  exact label.short

/-- A name is proper when it has no empty part and its parts are short. -/
theorem properName_iff {name : String} :
    ProperName name ↔ dropEmpty name = name ∧ ShortPieces name := by
  constructor
  · intro proper
    exact ⟨proper.dropEmpty, proper.shortPieces⟩
  · rintro ⟨whole, short⟩
    refine ⟨(pieces name).attach.map fun part =>
      ⟨part.1, (of_mem_pieces part.2).1, (of_mem_pieces part.2).2.1, short part.1 part.2⟩, ?_⟩
    rw [List.map_map]
    exact whole.symm.trans (congrArg joinDots (List.attach_map_subtype_val _).symm)

instance (name : String) : Decidable (ShortPieces name) :=
  inferInstanceAs (Decidable (∀ part ∈ pieces name, (utf8 part).length < 192))

instance (name : String) : Decidable (ProperName name) :=
  decidable_of_iff _ properName_iff.symm

/-- The parts of a name that was parsed come from labels, and so are short. -/
theorem shortPieces_joinDots {labels : List String}
    (short : ∀ l ∈ labels, (utf8 l).length < 192) : ShortPieces (joinDots labels) := by
  intro part member
  rw [pieces_joinDots] at member
  obtain ⟨label, found, member⟩ := List.mem_flatMap.mp member
  have sub := length_utf8_sublist (of_mem_pieces member).2.2
  rw [String.ofList_toList, String.ofList_toList] at sub
  exact Nat.lt_of_le_of_lt sub (short label found)

@[simp] theorem length_labelBytes (label : String) :
    (labelBytes label).length = (utf8 label).length + 1 := rfl

/-- What is written behind the first of several labels is the name of the others. -/
theorem flatMap_labelBytes_cons (label : String) (rest : List String) (pre post : List UInt8) :
    pre ++ ((label :: rest).flatMap labelBytes ++ [0] ++ post) =
      pre ++ labelBytes label ++ (rest.flatMap labelBytes ++ [0] ++ post) := by
  simp

/-- Labels written one after the other, then the root, are the name of these labels. -/
theorem nameAt_labelBytes : ∀ (labels : List String) (pre post : List UInt8),
    (∀ l ∈ labels, l ≠ "" ∧ (utf8 l).length < 192) →
    NameAt (pre ++ (labels.flatMap labelBytes ++ [0] ++ post)) pre.length (labels.map utf8)
      (pre.length + (labels.flatMap labelBytes ++ [0]).length) 0
  | [], pre, post, _ => .root (by simp)
  | label :: rest, pre, post, fits => by
      obtain ⟨nonempty, short⟩ := fits label List.mem_cons_self
      have positive : 0 < (utf8 label).length := List.length_pos_iff.mpr
        (mt utf8_eq_nil_iff.mp nonempty)
      have len : (UInt8.ofNat (utf8 label).length).toNat = (utf8 label).length := by
        rw [UInt8.toNat_ofNat']
        omega
      have ih := nameAt_labelBytes rest (pre ++ labelBytes label) post fun l member =>
        fits l (List.mem_cons_of_mem _ member)
      have behind : (pre ++ labelBytes label).length = pre.length + 1 + (utf8 label).length := by
        rw [List.length_append, length_labelBytes]
        omega
      have total : pre.length + 1 + (utf8 label).length + (rest.flatMap labelBytes ++ [0]).length =
          pre.length + ((label :: rest).flatMap labelBytes ++ [0]).length := by
        simp only [List.flatMap_cons, List.length_append, length_labelBytes]
        omega
      rw [← flatMap_labelBytes_cons, behind, total] at ih
      generalize whole : pre ++ ((label :: rest).flatMap labelBytes ++ [0] ++ post) = b at ih ⊢
      have here : b[pre.length]? = some (UInt8.ofNat (utf8 label).length) := by
        simp [← whole, labelBytes]
      have text : (b.drop (pre.length + 1)).take (utf8 label).length = utf8 label := by
        have past : pre.drop (pre.length + 1) = [] := List.drop_of_length_le (Nat.le_succ _)
        simp [← whole, labelBytes, List.drop_append, past]
      have nonzero : UInt8.ofNat (utf8 label).length ≠ 0 := by
        intro zero
        rw [zero, UInt8.toNat_zero] at len
        omega
      have fits : pre.length + 1 + (utf8 label).length ≤ b.length := by
        have behind := ih.bounds
        omega
      rw [← len] at short fits ih
      have step := NameAt.label here nonzero short fits ih
      rwa [len, text] at step

/-- **What `serialize_name` writes is read back without its empty parts.** -/
theorem reads_serializeName {name : String} (short : ShortPieces name) :
    Reader.Reads parseName (serializeName name) (· = dropEmpty name) := by
  intro pre post
  refine ⟨_, parseName_eq_ok_iff.mpr ⟨pieces name, 0, ?_, Nat.zero_le _, rfl⟩, rfl⟩
  rw [serializeName_eq]
  exact nameAt_labelBytes _ _ _ fun part member => ⟨(of_mem_pieces member).1, short part member⟩

/-- A name that `parse_name` gives has short parts. -/
theorem parseName_yields : Reader.Yields parseName ShortPieces := by
  intro data pos name pos' parsed
  obtain ⟨labels, j, at_, -, rfl⟩ := parseName_eq_ok_iff.mp parsed
  apply shortPieces_joinDots
  intro label member
  exact (at_.label_length _ (List.mem_map_of_mem member)).2

end DnsLigase.Dns
