import Direclaw.Queue.Lifecycle
import Mathlib.Data.Finset.Card

/-!
# Malformed files in front of well-formed ones

`claim_oldest` takes the first file by modification time and name. A file that
cannot be read is put back under a requeue name with its modification time, so
it is as old as before. It stays in front of every younger file, and the calls
that follow claim it again and again.
-/

namespace Direclaw.Queue

open Direclaw.Lib

section Claims

variable (hash : List Char → List Char)

/-- The results of `n` calls of `claim_oldest` in a row. -/
def claimRepeatedly : QueueState → ℕ → List (Except QueueError (Option ClaimedMessage))
  | _, 0 => []
  | q, n + 1 => (claimOldest hash q).2 :: claimRepeatedly (claimOldest hash q).1 n

/-- One of the next `n` calls returns the message of the file `name`. -/
def ClaimedWithin (q : QueueState) (n : ℕ) (name : FileName) : Prop :=
  ∃ claimed, .ok (some claimed) ∈ claimRepeatedly hash q n ∧ claimed.name = name

end Claims

/-- The listed files that cannot be read. -/
def malformedNames (q : QueueState) : Finset FileName :=
  q.incoming.keys.toFinset.filter fun name =>
    isValidQueueJsonFilename name = true ∧
      (q.incoming.lookup name).any (·.content.payload.isNone) = true

structure OldestWellFormed (q : QueueState) (name : FileName) (file : File) : Prop where
  listed : Listed q.incoming name file
  wellFormed : file.content.payload.isSome
  oldest : ∀ n f, Listed q.incoming n f → f.content.payload.isSome →
    toLex (file.modified, name) ≤ toLex (f.modified, n)

structure Blocks (q : QueueState) (name : FileName) (file : File) (n : FileName) (f : File) :
    Prop where
  listed : Listed q.incoming n f
  malformed : f.content.payload = none
  before : toLex (f.modified, n) < toLex (file.modified, name)

/-- What the first requeue names start with. -/
def firstRequeue : List Char := requeueTag ++ ['0']

/-- The tag and a digit, as every requeue name has them. -/
def RequeueLike (name : FileName) : Prop :=
  ∃ d : Char, d.isDigit = true ∧ requeueTag ++ [d] <+: name

/-- The malformed files in front of `name` are as old as it is, and `name` sorts
before every requeue name. -/
def Unblocked (q : QueueState) (name : FileName) (file : File) : Prop :=
  ∀ n f, Blocks q name file n f → f.modified = file.modified ∧ name < firstRequeue

section Order

variable {name target : FileName}

theorem isDigit_bounds {d : Char} (h : d.isDigit = true) : '0' ≤ d ∧ d ≤ '9' := by
  rw [Char.isDigit, Bool.and_eq_true, decide_eq_true_eq, decide_eq_true_eq] at h
  exact h

theorem RequeueLike.above (h : RequeueLike target) (hname : name < firstRequeue) :
    name < target := by
  obtain ⟨d, hd, hprefix⟩ := h
  refine Text.lt_of_lt_of_isPrefix (lt_of_lt_of_le hname ?_) hprefix
  rcases eq_or_lt_of_le (isDigit_bounds hd).1 with rfl | hlt
  · exact le_refl _
  · exact le_of_lt (List.append_left_lt (List.cons_lt_cons_iff.mpr (.inl hlt)))

/-- A name that is neither before the requeue names nor like one is behind them. -/
theorem RequeueLike.below (h : RequeueLike target) (hname : ¬ RequeueLike name)
    (hfirst : ¬ name < firstRequeue) : target < name := by
  obtain ⟨d, hd, hprefix⟩ := h
  by_cases htag : requeueTag <+: name
  · obtain ⟨rest, rfl⟩ := htag
    cases rest with
    | nil =>
      refine absurd ?_ hfirst
      rw [List.append_nil]
      decide
    | cons c rest =>
      have hzero : ¬ c < '0' := fun hlt =>
        hfirst (List.append_left_lt (List.cons_lt_cons_iff.mpr (.inl hlt)))
      have hdigit : ¬ c.isDigit = true := fun hc =>
        hname ⟨c, hc, List.prefix_append_right_inj _ |>.mpr ⟨rest, rfl⟩⟩
      have hnine : '9' < c := by
        by_contra hle
        refine hdigit ?_
        rw [Char.isDigit, Bool.and_eq_true, decide_eq_true_eq, decide_eq_true_eq]
        exact ⟨not_lt.mp hzero, not_lt.mp hle⟩
      obtain ⟨behind, rfl⟩ := hprefix
      rw [List.append_assoc]
      refine List.append_left_lt (List.cons_lt_cons_iff.mpr (.inl ?_))
      exact lt_of_le_of_lt (isDigit_bounds hd).2 hnine
  · have hlt : requeueTag < name := by
      have htagged : requeueTag < firstRequeue := by decide
      exact lt_of_lt_of_le htagged (not_lt.mp hfirst)
    exact Text.lt_of_isPrefix_of_lt hlt htag ((List.prefix_append _ _).trans hprefix)

theorem not_requeueLike_of_lt (h : name < firstRequeue) : ¬ RequeueLike name :=
  fun hlike => lt_irrefl _ (hlike.above h)

end Order

section OneCall

variable {hash : List Char → List Char} {q : QueueState} {name n : FileName} {file f : File}

/-- Either nothing stands in front and the call claims the file, or the call puts
a file back that does. -/
theorem claimOldest_blocks (hash : List Char → List Char) (h : OldestWellFormed q name file) :
    (∃ payload,
      (∀ m g, Listed q.incoming m g → toLex (file.modified, name) ≤ toLex (g.modified, m)) ∧
      claimOldest hash q =
        (afterClaim q name file, .ok (some { name := name, payload := payload }))) ∨
    (∃ n f err, Blocks q name file n f ∧
      (∀ m g, Listed q.incoming m g → toLex (f.modified, n) ≤ toLex (g.modified, m)) ∧
      claimOldest hash q = (afterBadClaim hash q n f, .error err)) := by
  rcases claimOldest_cases hash q with ⟨hnil, _⟩ | ⟨n, f, _, hlisted, hmin, hcase⟩
  · have hmem := mem_sortedIncoming.mpr h.listed
    rw [hnil] at hmem
    cases hmem
  · have hle := hmin name file h.listed
    rcases hcase with ⟨payload, hp, hclaim⟩ | ⟨hp, err, hclaim⟩
    · -- a well-formed first file is the oldest well-formed one
      have hge := h.oldest n f hlisted (by rw [hp]; rfl)
      have heq : n = name := (Prod.ext_iff.mp (toLex.injective (le_antisymm hle hge))).2
      subst heq
      obtain rfl := hlisted.unique h.listed
      exact .inl ⟨_, hmin, hclaim⟩
    · refine .inr ⟨n, f, err, ⟨hlisted, hp, lt_of_le_of_ne hle ?_⟩, hmin, hclaim⟩
      intro heq
      have hname : n = name := (Prod.ext_iff.mp (toLex.injective heq)).2
      subst hname
      obtain rfl := hlisted.unique h.listed
      have hsome := h.wellFormed
      rw [hp] at hsome
      cases hsome

/-- What is listed after a file was put back. -/
theorem listed_afterBadClaim {m : FileName} {g : File}
    (h : Listed (afterBadClaim hash q n f).incoming m g) :
    (g = f ∧ RequeueLike m) ∨ (m ≠ n ∧ Listed q.incoming m g) := by
  obtain ⟨hlookup, hvalid⟩ := h
  simp only [afterBadClaim, Directory.lookup_insert, Directory.lookup_erase] at hlookup
  split at hlookup
  · next htarget =>
      rw [htarget]
      exact .inl ⟨(Option.some.inj hlookup).symm, requeueDigit_isPrefix_name _ _ _⟩
  · split at hlookup
    · cases hlookup
    · next hne => exact .inr ⟨hne, hlookup, hvalid⟩

/-- The file that was put back is listed under its new name. -/
theorem listed_requeued (hash : List Char → List Char) (h : Listed q.incoming n f) :
    ∃ m, RequeueLike m ∧ Listed (afterBadClaim hash q n f).incoming m f := by
  refine ⟨requeueTarget hash q n, requeueDigit_isPrefix_name _ _ _, ?_,
    isValid_uniqueRequeueName h.2 _ _⟩
  simp only [afterBadClaim, Directory.lookup_insert, if_true]

/-- Putting another file back leaves the oldest well-formed one in its place. -/
theorem OldestWellFormed.afterBadClaim (h : OldestWellFormed q name file)
    (hb : Blocks q name file n f) (hname : ¬ RequeueLike name) :
    OldestWellFormed (afterBadClaim hash q n f) name file := by
  have hne : name ≠ n := by
    rintro rfl
    have hsome := h.wellFormed
    rw [← hb.listed.unique h.listed, hb.malformed] at hsome
    cases hsome
  refine ⟨⟨?_, h.listed.2⟩, h.wellFormed, fun m g hlisted hsome => ?_⟩
  · simp only [Queue.afterBadClaim, Directory.lookup_insert, Directory.lookup_erase]
    rw [if_neg, if_neg hne]
    · exact h.listed.1
    · rintro rfl
      exact hname (requeueDigit_isPrefix_name _ _ _)
  · rcases listed_afterBadClaim hlisted with ⟨rfl, _⟩ | ⟨_, hold⟩
    · rw [hb.malformed] at hsome
      cases hsome
    · exact h.oldest m g hold hsome

end OneCall

/-! ## Enough calls -/

section Runs

variable {hash : List Char → List Char} {q : QueueState} {name : FileName} {file : File}

/-- The malformed files in front of `name`. -/
def blockers (q : QueueState) (name : FileName) (file : File) : Finset FileName :=
  (malformedNames q).filter fun n =>
    (q.incoming.lookup n).any (fun f => toLex (f.modified, n) < toLex (file.modified, name)) = true

theorem mem_blockers {n : FileName} :
    n ∈ blockers q name file ↔ ∃ f, Blocks q name file n f := by
  simp only [blockers, malformedNames, Finset.mem_filter, List.mem_toFinset]
  constructor
  · rintro ⟨⟨_, hvalid, hbad⟩, hbefore⟩
    cases hlookup : q.incoming.lookup n with
    | none => simp [hlookup] at hbad
    | some f =>
      simp only [hlookup, Option.any_some, Option.isNone_iff_eq_none, decide_eq_true_eq]
        at hbad hbefore
      exact ⟨f, ⟨hlookup, hvalid⟩, hbad, hbefore⟩
  · rintro ⟨f, hb⟩
    have hlookup := hb.listed.1
    refine ⟨⟨?_, hb.listed.2, ?_⟩, ?_⟩
    · exact AList.lookup_isSome.mp (by rw [hlookup]; rfl)
    · simp [hlookup, hb.malformed]
    · simpa [hlookup] using hb.before

/-- Putting a blocker back behind `name` leaves one blocker less. -/
theorem blockers_afterBadClaim (hash : List Char → List Char) {n : FileName} {f : File}
    (hb : Blocks q name file n f) (htie : f.modified = file.modified) (hname : name < firstRequeue) :
    blockers (afterBadClaim hash q n f) name file ⊆ (blockers q name file).erase n := by
  intro m hm
  obtain ⟨g, hg⟩ := mem_blockers.mp hm
  rcases listed_afterBadClaim hg.listed with ⟨rfl, hlike⟩ | ⟨hne, hold⟩
  · have hlt : name < m := hlike.above hname
    rcases Prod.Lex.toLex_lt_toLex.mp hg.before with hlt' | ⟨_, hlt'⟩
    · exact absurd htie (ne_of_lt hlt')
    · exact absurd hlt' (not_lt.mpr (le_of_lt hlt))
  · exact Finset.mem_erase.mpr ⟨hne, mem_blockers.mpr ⟨g, hold, hg.malformed, hg.before⟩⟩

theorem Unblocked.afterBadClaim {n : FileName} {f : File} (h : Unblocked q name file)
    (hb : Blocks q name file n f) : Unblocked (afterBadClaim hash q n f) name file := by
  obtain ⟨htie, hname⟩ := h n f hb
  intro m g hg
  have hm := blockers_afterBadClaim hash hb htie hname (mem_blockers.mpr ⟨g, hg⟩)
  obtain ⟨g', hg'⟩ := mem_blockers.mp (Finset.mem_of_mem_erase hm)
  rcases listed_afterBadClaim hg.listed with ⟨rfl, _⟩ | ⟨_, hold⟩
  · exact ⟨htie, hname⟩
  · obtain rfl := hold.unique hg'.listed
    exact h m g hg'

/-- The file is claimed as soon as the files in front of it have been put back. -/
theorem claimedWithin_of_unblocked (t : ℕ) (h : OldestWellFormed q name file)
    (hun : Unblocked q name file) (ht : (blockers q name file).card ≤ t) :
    ClaimedWithin hash q (t + 1) name := by
  induction t generalizing q with
  | zero =>
    rcases claimOldest_blocks hash h with ⟨payload, _, hclaim⟩ | ⟨n, f, err, hb, _, _⟩
    · exact ⟨_, by rw [claimRepeatedly, hclaim]; exact List.mem_cons_self, rfl⟩
    · have hmem := mem_blockers.mpr ⟨f, hb⟩
      rw [Finset.card_eq_zero.mp (Nat.le_zero.mp ht)] at hmem
      cases hmem
  | succ t ih =>
    rcases claimOldest_blocks hash h with ⟨payload, _, hclaim⟩ | ⟨n, f, err, hb, _, hclaim⟩
    · exact ⟨_, by rw [claimRepeatedly, hclaim]; exact List.mem_cons_self, rfl⟩
    · obtain ⟨htie, hname⟩ := hun n f hb
      -- the requeue name sorts after `name`, so each call removes a blocker for good
      have hcard : (blockers (afterBadClaim hash q n f) name file).card ≤ t := by
        have hle := Finset.card_le_card (blockers_afterBadClaim hash hb htie hname)
        have hlt := Finset.card_erase_lt_of_mem (mem_blockers.mpr ⟨f, hb⟩)
        omega
      obtain ⟨claimed, hmem, heq⟩ :=
        ih (h.afterBadClaim hb (not_requeueLike_of_lt hname)) (hun.afterBadClaim hb) hcard
      refine ⟨claimed, ?_, heq⟩
      rw [claimRepeatedly, hclaim]
      exact List.mem_cons_of_mem _ hmem

/-! ## No number of calls is enough -/

/-- A malformed file that stays in front of every well-formed one, wherever it is
put. -/
def BlockedForGood (q : QueueState) : Prop :=
  ∃ n f, Listed q.incoming n f ∧ f.content.payload = none ∧
    ∀ m g, Listed q.incoming m g → g.content.payload.isSome →
      f.modified < g.modified ∨
        f.modified = g.modified ∧ n < m ∧ ∀ target, RequeueLike target → target < m

/-- The next call fails and leaves the queue blocked. -/
theorem BlockedForGood.claimOldest (hash : List Char → List Char) (h : BlockedForGood q) :
    ∃ err, (claimOldest hash q).2 = .error err ∧ BlockedForGood (claimOldest hash q).1 := by
  obtain ⟨n, f, hlisted, hbad, hfront⟩ := h
  rcases claimOldest_cases hash q with ⟨hnil, _⟩ | ⟨n₀, f₀, _, hlisted₀, hmin, hcase⟩
  · have hmem := mem_sortedIncoming.mpr hlisted
    rw [hnil] at hmem
    cases hmem
  · have hle := Prod.Lex.toLex_le_toLex.mp (hmin n f hlisted)
    have hmod : f₀.modified ≤ f.modified := hle.elim le_of_lt fun h => le_of_eq h.1
    rcases hcase with ⟨payload, hp, _⟩ | ⟨hp, err, hclaim⟩
    · -- a well-formed file is never the least one
      rcases hfront n₀ f₀ hlisted₀ (by rw [hp]; rfl) with hlt | ⟨heq, hlt, _⟩
      · exact absurd hlt (not_lt.mpr hmod)
      · rcases hle with hlt' | ⟨_, hle'⟩
        · exact absurd heq (ne_of_gt hlt')
        · exact absurd hlt (not_lt.mpr hle')
    · rw [hclaim]
      obtain ⟨target, hlike, hback⟩ := listed_requeued hash hlisted₀
      refine ⟨err, rfl, target, f₀, hback, hp, fun m g hm hg => ?_⟩
      rcases listed_afterBadClaim hm with ⟨rfl, _⟩ | ⟨_, hold⟩
      · rw [hp] at hg
        cases hg
      · rcases hfront m g hold hg with hlt | ⟨heq, _, hall⟩
        · exact .inl (lt_of_le_of_lt hmod hlt)
        · rcases lt_or_eq_of_le hmod with hlt | heq'
          · exact .inl (lt_of_lt_of_eq hlt heq)
          · exact .inr ⟨heq'.trans heq, hall target hlike, hall⟩

theorem BlockedForGood.not_claimedWithin (hash : List Char → List Char) (h : BlockedForGood q)
    (n : ℕ) : ¬ ClaimedWithin hash q n name := by
  induction n generalizing q with
  | zero =>
    rintro ⟨claimed, hmem, _⟩
    cases hmem
  | succ n ih =>
    rintro ⟨claimed, hmem, heq⟩
    obtain ⟨err, hnow, hnext⟩ := h.claimOldest hash
    rw [claimRepeatedly, hnow] at hmem
    rcases List.mem_cons.mp hmem with hfirst | hlater
    · cases hfirst
    · exact ih hnext ⟨claimed, hlater, heq⟩

theorem blockedForGood_of_older {n : FileName} {f : File} (h : OldestWellFormed q name file)
    (hb : Blocks q name file n f) (hold : f.modified < file.modified) : BlockedForGood q := by
  refine ⟨n, f, hb.listed, hb.malformed, fun m g hm hg => .inl ?_⟩
  rcases Prod.Lex.toLex_le_toLex.mp (h.oldest m g hm hg) with hlt | ⟨heq, _⟩
  · exact lt_trans hold hlt
  · exact lt_of_lt_of_eq hold heq

/-- So does an equally old one, when every requeue name sorts before `name`. -/
theorem blockedForGood_of_tie {n : FileName} {f : File} (h : OldestWellFormed q name file)
    (hb : Blocks q name file n f) (htie : f.modified = file.modified)
    (hname : ∀ target, RequeueLike target → target < name) : BlockedForGood q := by
  have hn : n < name := by
    rcases Prod.Lex.toLex_lt_toLex.mp hb.before with hlt | ⟨_, hlt⟩
    · exact absurd htie (ne_of_lt hlt)
    · exact hlt
  refine ⟨n, f, hb.listed, hb.malformed, fun m g hm hg => ?_⟩
  rcases Prod.Lex.toLex_le_toLex.mp (h.oldest m g hm hg) with hlt | ⟨heq, hle⟩
  · exact .inl (lt_of_eq_of_lt htie hlt)
  · exact .inr ⟨htie.trans heq, lt_of_lt_of_le hn hle,
      fun target ht => lt_of_lt_of_le (hname target ht) hle⟩

end Runs

/-- **Malformed files.** With `k` malformed files in `incoming`, the oldest
well-formed message is claimed within `k + 1` calls when the malformed files in
front of it are as old as it is and its name sorts before every requeue name. That
they are as old is always needed, and unless its own name has the tag and a digit behind
it, so is the rest. -/
theorem oldest_claimedWithin_iff (hash : List Char → List Char) (q : QueueState)
    (name : FileName) (file : File) (h : OldestWellFormed q name file) :
    (Unblocked q name file → ClaimedWithin hash q ((malformedNames q).card + 1) name) ∧
    (ClaimedWithin hash q ((malformedNames q).card + 1) name →
      ∀ n f, Blocks q name file n f → f.modified = file.modified) ∧
    (¬ RequeueLike name →
      (ClaimedWithin hash q ((malformedNames q).card + 1) name ↔ Unblocked q name file)) := by
  have henough : Unblocked q name file →
      ClaimedWithin hash q ((malformedNames q).card + 1) name :=
    fun hun => claimedWithin_of_unblocked _ h hun (Finset.card_filter_le _ _)
  have htied : ClaimedWithin hash q ((malformedNames q).card + 1) name →
      ∀ n f, Blocks q name file n f → f.modified = file.modified := by
    intro hclaimed n f hb
    rcases Prod.Lex.toLex_lt_toLex.mp hb.before with hlt | ⟨heq, _⟩
    · exact absurd hclaimed ((blockedForGood_of_older h hb hlt).not_claimedWithin hash _)
    · exact heq
  refine ⟨henough, htied, fun hname => ⟨fun hclaimed n f hb => ?_, henough⟩⟩
  have htie := htied hclaimed n f hb
  refine ⟨htie, ?_⟩
  by_contra hlt
  -- otherwise every requeue name sorts before `name`, and the tie never breaks
  exact (blockedForGood_of_tie h hb htie
    fun target hlike => hlike.below hname hlt).not_claimedWithin hash _ hclaimed

/-! ### A file in front that is older, and one that is as old -/

def sampleMessage (messageId : String) : IncomingMessage where
  channel := "slack"
  channelProfileId := some "profile-1"
  sender := "Alice"
  senderId := "U123"
  message := "hello"
  timestamp := 1
  messageId := messageId

def sampleFile (modified : ℕ) : File := ⟨modified, .json (sampleMessage "m1").encode⟩

def brokenFile (modified : ℕ) : File := ⟨modified, .notJson "not json"⟩

/-- `bad.json` cannot be read and was written at `t`; `good.json` at 2. -/
def brokenBeside (t : ℕ) : QueueState where
  incoming := AList.insert "bad.json".toList (brokenFile t)
    (AList.insert "good.json".toList (sampleFile 2) ∅)

theorem listed_brokenBeside {t : ℕ} {n : FileName} {f : File}
    (h : Listed (brokenBeside t).incoming n f) :
    (n = "bad.json".toList ∧ f = brokenFile t) ∨ (n = "good.json".toList ∧ f = sampleFile 2) := by
  have hlookup := h.1
  simp only [brokenBeside, Directory.lookup_insert] at hlookup
  split at hlookup
  · next hn => exact .inl ⟨hn, (Option.some.inj hlookup).symm⟩
  · split at hlookup
    · next hn => exact .inr ⟨hn, (Option.some.inj hlookup).symm⟩
    · cases hlookup

theorem oldest_brokenBeside (t : ℕ) :
    OldestWellFormed (brokenBeside t) "good.json".toList (sampleFile 2) := by
  refine ⟨⟨rfl, rfl⟩, rfl, fun n f hlisted hsome => ?_⟩
  rcases listed_brokenBeside hlisted with ⟨_, rfl⟩ | ⟨rfl, rfl⟩
  · cases hsome
  · exact le_refl _

/-- One malformed file that is a second older: neither of two calls returns the
well-formed message. -/
theorem older_malformed_blocks :
    OldestWellFormed (brokenBeside 1) "good.json".toList (sampleFile 2) ∧
    (malformedNames (brokenBeside 1)).card = 1 ∧
    ∀ hash, ¬ ClaimedWithin hash (brokenBeside 1) 2 "good.json".toList := by
  have hblocks : Blocks (brokenBeside 1) "good.json".toList (sampleFile 2) "bad.json".toList
      (brokenFile 1) := ⟨⟨rfl, rfl⟩, rfl, by decide⟩
  refine ⟨oldest_brokenBeside 1, rfl, fun hash => ?_⟩
  exact (blockedForGood_of_older (oldest_brokenBeside 1) hblocks (by decide)).not_claimedWithin hash 2

/-- The digest is that of `bad.json:1`. -/
theorem oldest_claimedWithin_iff_tie :
    ClaimedWithin (fun _ => "c4ac83b70bc1a58e".toList) (brokenBeside 2)
      ((malformedNames (brokenBeside 2)).card + 1) "good.json".toList := by
  refine (oldest_claimedWithin_iff _ _ _ _ (oldest_brokenBeside 2)).1 ?_
  intro n f hb
  rcases listed_brokenBeside hb.listed with ⟨rfl, rfl⟩ | ⟨rfl, rfl⟩
  · exact ⟨rfl, by decide⟩
  · exact absurd hb.before (lt_irrefl _)

end Direclaw.Queue
