/-
MeshLayout/Proofs/Polling.lean

A reader and a source that need not be at its end.

A source is a machine that answers requests (`Source`).  That it has no token
now does not say that it has none later.  A call of `Reader.next` takes as
many answers as it needs (`Source.Call`), and calls follow each other, each
with the reader and the source as the one before has left them (`Polls`).

After an error a reader gives nothing more and asks for nothing more.  After
the end of a description it gives nothing more either, but it asks: so it
relies on its source, and where a source that had no tokens has some again,
it fails (`polls_after_end`).  A reader of a source that goes on after a pause
is therefore not at its end for good (`not_fusesReaders_ofList`).
-/
import MeshLayout.Proofs.Lockstep

namespace MeshLayout

/-! ### Sources -/

/-- A supply of tokens with a state of its own.  To each request it answers with a token, or with
`none` if it has none at that time. -/
def Source (σ : Type) : Type := σ → Option Token × σ

namespace Source

variable {σ : Type}

/-- The answers to the first requests. -/
def answers (source : Source σ) (s : σ) : Nat → List (Option Token)
  | 0 => []
  | n + 1 => (source s).1 :: source.answers (source s).2 n

/-- The source after so many requests. -/
def after (source : Source σ) (s : σ) : Nat → σ
  | 0 => s
  | n + 1 => source.after (source s).2 n

variable {source : Source σ} {s : σ}

@[simp] theorem length_answers (n : Nat) : (source.answers s n).length = n := by
  induction n generalizing s with
  | zero => rfl
  | succ n ih => exact congrArg (· + 1) ih

theorem answers_add (n m : Nat) :
    source.answers s (n + m) = source.answers s n ++ source.answers (source.after s n) m := by
  induction n generalizing s with
  | zero => rw [Nat.zero_add]; rfl
  | succ n ih =>
    rw [Nat.add_right_comm]
    exact congrArg _ ih

/-- The source that gives these answers, and then has no tokens. -/
def ofList : Source (List (Option Token))
  | [] => (none, [])
  | answer :: rest => (answer, rest)

/-! ### One call -/

/-- A call of `next` takes so many answers of the source to give the item, whatever the source
would answer afterwards. -/
def Call (source : Source σ) (reader : Reader) (s : σ) (item : Option (Except Error Event))
    (n : Nat) (next : Reader) : Prop :=
  ∀ rest, reader.next (source.answers s n ++ rest) = (item, next, rest)

namespace Call

variable {reader next : Reader} {item : Option (Except Error Event)} {n : Nat} {stage : Stage}

theorem of_failed (h : source.Call .failed s item n next) :
    item = none ∧ n = 0 ∧ next = .failed := by
  have hnext := h []
  rw [Reader.next_failed] at hnext
  obtain ⟨rfl, hrest⟩ := Prod.mk.inj hnext
  obtain ⟨rfl, hanswers⟩ := Prod.mk.inj hrest
  have hlength := congrArg List.length hanswers
  rw [List.append_nil, length_answers] at hlength
  exact ⟨rfl, hlength, rfl⟩

theorem failed : source.Call .failed s none 0 .failed := Reader.next_failed

theorem unique_add {next' : Reader} {item' : Option (Except Error Event)} {k : Nat}
    (h : source.Call reader s item n next) (h' : source.Call reader s item' (n + k) next') :
    item = item' ∧ n = n + k ∧ next = next' := by
  have hnext := h' []
  rw [answers_add, List.append_assoc, h, List.append_nil] at hnext
  obtain ⟨hitem, hrest⟩ := Prod.mk.inj hnext
  obtain ⟨hreader, hanswers⟩ := Prod.mk.inj hrest
  -- the answers behind the first call have been asked for by neither
  have hlength := congrArg List.length hanswers
  rw [length_answers, List.length_nil] at hlength
  exact ⟨hitem, by rw [hlength, Nat.add_zero], hreader⟩

/-- A call comes to one end only. -/
theorem unique {next' : Reader} {item' : Option (Except Error Event)} {m : Nat}
    (h : source.Call reader s item n next) (h' : source.Call reader s item' m next') :
    item = item' ∧ n = m ∧ next = next' := by
  rcases Nat.le_total n m with hle | hle
  · obtain ⟨k, rfl⟩ := Nat.exists_eq_add_of_le hle
    exact unique_add h h'
  · obtain ⟨k, rfl⟩ := Nat.exists_eq_add_of_le hle
    obtain ⟨hitem, hn, hnext⟩ := unique_add h' h
    exact ⟨hitem.symm, hn.symm, hnext.symm⟩

/-- What the call of a reader at a stage can do. -/
theorem of_stage (h : source.Call reader s item n next) (hstage : reader.stage? = some stage) :
    (∃ event after, stage.after event = .ok after ∧ item = some (.ok event) ∧
        next = after.reader) ∨
      (∃ e, item = some (.error e) ∧ next = .failed) ∨
      stage = .done ∧ item = none ∧ next = .done := by
  rcases Reader.next_cases hstage (source.answers s n ++ []) with
    ⟨event, after, rest, hafter, hnext⟩ | ⟨e, rest, hnext⟩ | ⟨rest, hdone, hnext⟩
  · obtain ⟨rfl, hrest⟩ := Prod.mk.inj ((h []).symm.trans hnext)
    exact .inl ⟨event, after, hafter, rfl, (Prod.mk.inj hrest).1⟩
  · obtain ⟨rfl, hrest⟩ := Prod.mk.inj ((h []).symm.trans hnext)
    exact .inr (.inl ⟨e, rfl, (Prod.mk.inj hrest).1⟩)
  · obtain ⟨rfl, hrest⟩ := Prod.mk.inj ((h []).symm.trans hnext)
    exact .inr (.inr ⟨hdone, rfl, (Prod.mk.inj hrest).1⟩)

theorem failed_of_error {e : Error} (h : source.Call reader s (some (.error e)) n next) :
    next = .failed := by
  by_cases hreader : reader = .failed
  · subst hreader
    exact h.of_failed.2.2
  obtain ⟨stage, hstage⟩ := Reader.ne_failed_iff.1 hreader
  rcases h.of_stage hstage with ⟨event, after, -, hitem, -⟩ | ⟨-, -, hnext⟩ | ⟨-, hitem, -⟩
  · cases hitem
  · exact hnext
  · cases hitem

end Call

end Source

/-! ### A reader behind the root element -/

namespace Reader

variable {rest : List (Option Token)}

theorem done_ne_failed : done ≠ failed := by simp

theorem next_done_none : done.next (none :: rest) = (none, done, rest) := rfl

theorem next_done_blank {token : Token} (h : token.IsBlank) :
    done.next (some token :: rest) = done.next rest := by
  rcases token with ⟨name, attributes⟩ | text | name
  · exact absurd h Token.not_isBlank_opening
  · have hfeed : done.feed (some (.text text)) = (done, .more) := if_pos (Token.isBlank_text.1 h)
    exact next_cons_more done_ne_failed hfeed
  · exact absurd h Token.not_isBlank_closing

theorem next_done_content {token : Token} (h : ¬ token.IsBlank) :
    done.next (some token :: rest) = (some (.error .trailingContent), failed, rest) := by
  have hfeed : done.feed (some token) = fail .trailingContent := by
    rcases token with ⟨name, attributes⟩ | text | name
    · rfl
    · exact if_neg fun hblank => h (Token.isBlank_text.2 hblank)
    · rfl
  exact next_cons_fail done_ne_failed hfeed

end Reader

namespace Source

variable {σ : Type} {source : Source σ} {s : σ} {next : Reader}
  {item : Option (Except Error Event)} {n : Nat}

theorem Call.done_none (h : (source s).1 = none) : source.Call .done s none 1 .done := by
  intro rest
  rw [answers, h]
  exact Reader.next_done_none

/-- Behind the root element a call passes over blanks.  It comes to a time when the source has no
token, or to a token that may not stand there. -/
theorem Call.of_done (h : source.Call .done s item n next) :
    (item = none ∧ next = .done ∧ ∀ token, some token ∈ source.answers s n → token.IsBlank) ∨
      (item = some (.error .trailingContent) ∧ next = .failed ∧
        ∃ token, some token ∈ source.answers s n ∧ ¬ token.IsBlank) := by
  induction n generalizing s with
  | zero =>
    -- the reader asks at least once
    have hrest := (Prod.mk.inj (Prod.mk.inj (h [none])).2).2
    cases hrest
  | succ n ih =>
    rw [answers] at *
    rcases hanswer : (source s).1 with - | token
    · have hnext := h []
      rw [answers, hanswer, List.cons_append, Reader.next_done_none] at hnext
      obtain ⟨rfl, hrest⟩ := Prod.mk.inj hnext
      obtain ⟨rfl, hanswers⟩ := Prod.mk.inj hrest
      rw [List.append_nil] at hanswers
      refine .inl ⟨rfl, rfl, ?_⟩
      rw [hanswers]
      intro token hmem
      cases List.mem_singleton.1 hmem
    · by_cases hblank : token.IsBlank
      · have hcall : source.Call .done (source s).2 item n next := by
          intro rest
          have hnext := h rest
          rwa [answers, hanswer, List.cons_append, Reader.next_done_blank hblank] at hnext
        rcases ih hcall with ⟨hitem, hreader, hblanks⟩ | ⟨hitem, hreader, other, hmem, hcontent⟩
        · refine .inl ⟨hitem, hreader, fun other hmem => ?_⟩
          rcases List.mem_cons.1 hmem with hother | hmem
          · cases hother
            exact hblank
          · exact hblanks other hmem
        · exact .inr ⟨hitem, hreader, other, List.mem_cons_of_mem _ hmem, hcontent⟩
      · have hnext := h []
        rw [answers, hanswer, List.cons_append, Reader.next_done_content hblank] at hnext
        obtain ⟨rfl, hrest⟩ := Prod.mk.inj hnext
        exact .inr ⟨rfl, (Prod.mk.inj hrest).1.symm, token, List.mem_cons_self, hblank⟩

end Source

/-! ### Calls in a row -/

/-- Calls of `next`, each on what the one before has left: these items, after so many requests in
all, and this reader at the end. -/
inductive Polls {σ : Type} (source : Source σ) :
    Reader → σ → List (Option (Except Error Event)) → Nat → Reader → Prop
  | nil {reader : Reader} {s : σ} : Polls source reader s [] 0 reader
  | cons {reader next last : Reader} {s : σ} {item : Option (Except Error Event)}
      {items : List (Option (Except Error Event))} {n m : Nat}
      (hcall : source.Call reader s item n next)
      (hrest : Polls source next (source.after s n) items m last) :
      Polls source reader s (item :: items) (n + m) last

namespace Polls

variable {σ : Type} {source : Source σ} {s : σ} {reader last : Reader}
  {items : List (Option (Except Error Event))} {n : Nat}

/-- The items are those of `poll`, for the answers that are asked for. -/
theorem poll_eq (h : Polls source reader s items n last) (rest : List (Option Token)) :
    reader.poll (source.answers s n ++ rest) items.length = items := by
  induction h with
  | nil => rfl
  | cons hcall _ ih =>
    rw [Source.answers_add, List.append_assoc, List.length_cons, Reader.poll, hcall]
    exact congrArg _ ih

/-! #### After an error -/

/-- A reader that has failed gives nothing, and asks for nothing. -/
theorem failed_iff : Polls source .failed s items n last ↔
    (∀ item ∈ items, item = none) ∧ n = 0 ∧ last = .failed := by
  constructor
  · intro h
    induction items generalizing s n with
    | nil =>
      cases h
      exact ⟨List.forall_mem_nil _, rfl, rfl⟩
    | cons item items ih =>
      rcases h with - | ⟨hcall, hrest⟩
      obtain ⟨hitem, rfl, rfl⟩ := hcall.of_failed
      obtain ⟨hitems, rfl, hlast⟩ := ih hrest
      exact ⟨List.forall_mem_cons.2 ⟨hitem, hitems⟩, rfl, hlast⟩
  · rintro ⟨hitems, rfl, rfl⟩
    induction items with
    | nil => exact .nil
    | cons item items ih =>
      obtain ⟨rfl, hrest⟩ := List.forall_mem_cons.1 hitems
      exact .cons .failed (ih hrest)

theorem failed_of_error_mem (h : Polls source reader s items n last) {e : Error}
    (he : some (.error e) ∈ items) : last = .failed := by
  induction h with
  | nil => cases he
  | cons hcall hrest ih =>
    rcases List.mem_cons.1 he with rfl | he
    · obtain rfl := hcall.failed_of_error
      exact (failed_iff.1 hrest).2.2
    · exact ih he

/-! #### After the end -/

/-- Behind the root element there is no event.  As long as the source has blanks only there is no
item at all, and otherwise one error. -/
theorem of_done (h : Polls source .done s items n last) :
    ((∀ item ∈ items, item = none) ∧ last = .done ∧
        ∀ token, some token ∈ source.answers s n → token.IsBlank) ∨
      (∃ before after, items = List.replicate before none ++
          some (.error .trailingContent) :: List.replicate after none) ∧
        ∃ token, some token ∈ source.answers s n ∧ ¬ token.IsBlank := by
  induction items generalizing s n with
  | nil =>
    cases h
    exact .inl ⟨List.forall_mem_nil _, rfl, fun token hmem => nomatch hmem⟩
  | cons item items ih =>
    rcases h with - | ⟨hcall, hrest⟩
    simp only [Source.answers_add, List.mem_append]
    rcases hcall.of_done with ⟨rfl, rfl, hblank⟩ | ⟨rfl, rfl, token, hmem, hcontent⟩
    · rcases ih hrest with ⟨hitems, hlast, hblanks⟩ |
        ⟨⟨before, after, rfl⟩, token, hmem, hcontent⟩
      · refine .inl ⟨List.forall_mem_cons.2 ⟨rfl, hitems⟩, hlast, fun token hmem => ?_⟩
        exact hmem.elim (hblank token) (hblanks token)
      · exact .inr ⟨⟨before + 1, after, rfl⟩, token, .inr hmem, hcontent⟩
    · obtain ⟨hitems, -⟩ := failed_iff.1 hrest
      refine .inr ⟨⟨0, items.length, ?_⟩, token, .inl hmem, hcontent⟩
      rw [List.replicate_zero, List.nil_append, ← List.eq_replicate_of_mem hitems]

/-- The reader has come to the end once it has given no item, unless it has failed. -/
theorem done_of_none_mem (h : Polls source reader s items n last) (hreader : reader ≠ .failed)
    (hnone : none ∈ items) (hok : ∀ e, some (.error e) ∉ items) : last = .done := by
  induction h with
  | nil => cases hnone
  | cons hcall hrest ih =>
    obtain ⟨stage, hstage⟩ := Reader.ne_failed_iff.1 hreader
    rcases hcall.of_stage hstage with ⟨event, after, -, rfl, rfl⟩ | ⟨e, rfl, -⟩ | ⟨-, rfl, rfl⟩
    · refine ih (Reader.ne_failed_iff.2 ⟨after, Reader.stage?_reader after⟩) ?_ ?_
      · exact (List.mem_cons.1 hnone).resolve_left nofun
      · exact fun e he => hok e (List.mem_cons_of_mem _ he)
    · exact absurd List.mem_cons_self (hok e)
    · rcases hrest.of_done with ⟨-, hlast, -⟩ | ⟨⟨before, after, rfl⟩, -⟩
      · exact hlast
      · exact absurd (by simp) (hok .trailingContent)

/-- If the source has no tokens any more, every call is one request. -/
theorem done_iff (hended : ∀ k, (source (source.after s k)).1 = none) :
    Polls source .done s items n last ↔
      (∀ item ∈ items, item = none) ∧ n = items.length ∧ last = .done := by
  constructor
  · intro h
    induction items generalizing s n with
    | nil =>
      cases h
      exact ⟨List.forall_mem_nil _, rfl, rfl⟩
    | cons item items ih =>
      rcases h with - | ⟨hcall, hrest⟩
      obtain ⟨rfl, rfl, rfl⟩ := hcall.unique (.done_none (hended 0))
      obtain ⟨hitems, rfl, hlast⟩ := ih (fun k => hended (k + 1)) hrest
      exact ⟨List.forall_mem_cons.2 ⟨rfl, hitems⟩, Nat.add_comm .., hlast⟩
  · rintro ⟨hitems, rfl, rfl⟩
    induction items generalizing s with
    | nil => exact .nil
    | cons item items ih =>
      obtain ⟨rfl, hrest⟩ := List.forall_mem_cons.1 hitems
      have hpolls := ih (fun k => hended (k + 1)) hrest
      rw [List.length_cons, Nat.add_comm]
      exact .cons (.done_none (hended 0)) hpolls

end Polls

/-! ### Whole histories of calls -/

section

variable {σ : Type} {source : Source σ} {s : σ} {items : List (Option (Except Error Event))}
  {n : Nat} {reader : Reader}

/-- **A reader after its last event.**  Once it has given an error, every later call gives no item
and makes no request.  Once it has given no item, later calls give none if and only if the source
answers them with blanks at most; otherwise one of them gives an error and the others nothing.  So
over a source that has no tokens any more, every later call gives no item, for one request. -/
theorem polls_after_end (h : Polls source .root s items n reader) :
    (∀ rest, Reader.root.poll (source.answers s n ++ rest) items.length = items) ∧
      (∀ e, some (.error e) ∈ items → ∀ later m last,
        Polls source reader (source.after s n) later m last ↔
          (∀ item ∈ later, item = none) ∧ m = 0 ∧ last = reader) ∧
      (none ∈ items → (∀ e, some (.error e) ∉ items) →
        (∀ later m last, Polls source reader (source.after s n) later m last →
          ((∀ item ∈ later, item = none) ↔
            ∀ token, some token ∈ source.answers (source.after s n) m → token.IsBlank) ∧
          ((∀ item ∈ later, item = none) ∨ ∃ before after,
            later = List.replicate before none ++
              some (.error .trailingContent) :: List.replicate after none)) ∧
        ((∀ k, (source (source.after (source.after s n) k)).1 = none) → ∀ later m last,
          Polls source reader (source.after s n) later m last ↔
            (∀ item ∈ later, item = none) ∧ m = later.length ∧ last = reader)) := by
  refine ⟨h.poll_eq, ?_, ?_⟩
  · intro e he later m last
    obtain rfl := h.failed_of_error_mem he
    exact Polls.failed_iff
  · intro hnone hok
    obtain rfl := h.done_of_none_mem (by simp) hnone hok
    refine ⟨?_, fun hended later m last => Polls.done_iff hended⟩
    intro later m last hlater
    rcases hlater.of_done with ⟨hitems, -, hblank⟩ | ⟨hlater, token, hmem, hcontent⟩
    · exact ⟨iff_of_true hitems hblank, .inl hitems⟩
    · refine ⟨iff_of_false ?_ fun hblank => hcontent (hblank token hmem), .inr hlater⟩
      obtain ⟨before, after, rfl⟩ := hlater
      intro hitems
      cases hitems (some (.error .trailingContent)) (by simp)

end

/-- A description, a time without tokens, and a second closing tag. -/
def resumed : List (Option Token) :=
  [some (.opening "mesh" []), some (.closing "mesh"), none, some (.closing "mesh")]

theorem polls_resumed_before_end :
    Polls Source.ofList .root resumed [some (.ok .enterMesh), some (.ok .exitMesh), none] 3
      .done :=
  .cons (fun _ => rfl) (.cons (fun _ => rfl) (.cons (fun _ => rfl) .nil) : Polls _ _ _ _ (1 + 1) _)

/-- The source is not at its end: what the reader gives from here on depends on it. -/
theorem polls_resumed :
    Polls Source.ofList .root resumed [some (.ok .enterMesh), some (.ok .exitMesh), none] 3
        .done ∧
      ∀ later m last, Polls Source.ofList .done [some (.closing "mesh")] later m last →
        ((∀ item ∈ later, item = none) ↔
          ∀ token, some token ∈ Source.answers Source.ofList [some (.closing "mesh")] m →
            token.IsBlank) := by
  refine ⟨polls_resumed_before_end, fun later m last hlater => ?_⟩
  obtain ⟨-, -, hend⟩ := polls_after_end polls_resumed_before_end
  exact ((hend (by simp) (by simp)).1 later m last hlater).1

/-- Readers of the source give nothing more once they have given nothing. -/
def Source.FusesReaders {σ : Type} (source : Source σ) : Prop :=
  ∀ s items n reader later m last, Polls source .root s items n reader →
    Polls source reader (source.after s n) later m last → none ∈ items →
    ∀ item ∈ later, item = none

/-- **A reader is not fused**: it has given nothing, and then gives an error. -/
theorem not_fusesReaders_ofList :
    Reader.root.poll resumed 5 =
        [some (.ok .enterMesh), some (.ok .exitMesh), none, some (.error .trailingContent), none] ∧
      ¬ Source.ofList.FusesReaders := by
  refine ⟨rfl, fun hfuses => ?_⟩
  have hlater : Polls Source.ofList .done [some (.closing "mesh")]
      [some (.error .trailingContent)] 1 .failed := .cons (fun _ => rfl) .nil
  cases hfuses _ _ _ _ _ _ _ polls_resumed_before_end hlater (by simp) _ List.mem_cons_self

end MeshLayout
