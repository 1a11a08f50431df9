import Mathlib.Algebra.Field.Basic
import Mathlib.Algebra.Order.Field.Rat
import Mathlib.Data.List.Dedup
import Mathlib.Data.List.Nodup
import Mathlib.Data.List.Perm.Basic
import Mathlib.Data.Prod.Lex
import Mathlib.Data.String.Basic
import MsgServer.Library.Greedy
import MsgServer.Library.Program

/-!
`rank` of algorithm/ranker.py. The scores are exact: they lie in any ordered field with a
function for the powers of two. A time without a timezone is `none`; `casefold` is a
parameter. A `ValueError` is its text.
-/

namespace MsgServer.Ranker

open Library Library.Greedy

def maxCandidates : Nat := 256

structure Candidate where
  id : String
  author : String
  createdAt : Option Rat
  tags : List String
  deriving DecidableEq

structure Recommendation (K : Type) where
  candidate : Candidate
  score : K
  reasons : List String
  deriving DecidableEq

variable {K : Type} [Field K] [LinearOrder K] (exp2 : Rat → K) (casefold : String → String)

/-- The viewer: the time of the request in seconds, the followed authors and the wanted
tags. -/
structure Viewer where
  now : Option Rat
  following : List String
  interests : List String

/-- `frozenset(tag.casefold() for tag in interests)`. -/
def Viewer.folded (viewer : Viewer) : List String := (viewer.interests.map casefold).dedup

def matches' (viewer : Viewer) (item : Candidate) : List String :=
  (viewer.folded casefold).filter fun tag => tag ∈ item.tags.map casefold

def recommendation (viewer : Viewer) (now created : Rat) (item : Candidate) :
    Recommendation K :=
  let ageHours := max 0 ((now - created) / 3600)
  let found := (matches' casefold viewer item).length
  let followed := decide (item.author ∈ viewer.following)
  { candidate := item
    score := exp2 (-ageHours / 24) + (if followed then 3 else 0) +
      if found = 0 then 0 else 2 * found / (viewer.folded casefold).length
    reasons := "recent" :: ((if followed then ["followed_author"] else []) ++
      if found = 0 then [] else ["interest_match"]) }

def raw (viewer : Viewer) (now : Rat) (item : Candidate) : Except String (Recommendation K) :=
  match item.createdAt with
  | none => .error "candidate time must have a timezone"
  | some created => .ok (recommendation exp2 casefold viewer now created item)

/-- The sort key, where `counts` are the earlier picks of each author. -/
def key (counts : String → Nat) (item : Recommendation K) : K ×ₗ String :=
  toLex (-item.score / (1 + counts item.candidate.author), item.candidate.id)

def note (counts : String → Nat) (best : Recommendation K) : String → Nat :=
  Function.update counts best.candidate.author (counts best.candidate.author + 1)

/-- `now.utcoffset() is None`. -/
def aware (time : Option Rat) (text : String) : Except String Rat :=
  match time with
  | none => .error text
  | some time => .ok time

def rank (candidates : List Candidate) (viewer : Viewer) (limit : Int) :
    Except String (List (Recommendation K)) := do
  Program.ensure (1 ≤ limit ∧ limit ≤ 100) "limit must be between 1 and 100"
  let now ← aware viewer.now "now must have a timezone"
  Program.ensure (candidates.length ≤ maxCandidates) "too many candidates"
  Program.ensure ((candidates.map Candidate.id).dedup.length = candidates.length)
    "duplicate candidate ID"
  let pending ← candidates.mapM (raw exp2 casefold viewer now)
  return pick key note limit.toNat (fun _ => 0) pending

variable {exp2 : Rat → K} {casefold : String → String}

/-! What is ranked -/

/-- The recommendation of a candidate whose time has a timezone. -/
def recommend (exp2 : Rat → K) (casefold : String → String) (viewer : Viewer) (now : Rat)
    (item : Candidate) : Recommendation K :=
  recommendation exp2 casefold viewer now (item.createdAt.getD 0) item

theorem mapM_raw (viewer : Viewer) (now : Rat) (candidates : List Candidate) :
    candidates.mapM (raw exp2 casefold viewer now) =
      if ∀ item ∈ candidates, item.createdAt.isSome = true then
        .ok (candidates.map (recommend exp2 casefold viewer now))
      else .error "candidate time must have a timezone" := by
  induction candidates with
  | nil => rfl
  | cons item rest ih =>
      rw [List.mapM_cons, ih, raw]
      cases time : item.createdAt with
      | none =>
          have fails : ¬ ∀ other ∈ item :: rest, other.createdAt.isSome = true := by
            simp [time]
          rw [if_neg fails]
          rfl
      | some created =>
          by_cases all : ∀ other ∈ rest, other.createdAt.isSome = true
          · have both : ∀ other ∈ item :: rest, other.createdAt.isSome = true := by
              simpa [time] using all
            rw [if_pos all, if_pos both, List.map_cons, recommend, time]
            rfl
          · have fails : ¬ ∀ other ∈ item :: rest, other.createdAt.isSome = true := by
              simpa [time] using all
            rw [if_neg all, if_neg fails]
            rfl

theorem dedup_length {ids : List String} : ids.dedup.length = ids.length ↔ ids.Nodup := by
  constructor
  · intro same
    have whole := (List.dedup_sublist ids).eq_of_length same
    exact whole ▸ List.nodup_dedup ids
  · intro distinct
    rw [distinct.dedup]

/-- The candidates and the request that `rank` does not refuse. -/
structure Accepted (candidates : List Candidate) (viewer : Viewer) (limit : Int) : Prop where
  limit : 1 ≤ limit ∧ limit ≤ 100
  now : viewer.now.isSome = true
  few : candidates.length ≤ maxCandidates
  distinct : (candidates.map Candidate.id).Nodup
  aware : ∀ item ∈ candidates, item.createdAt.isSome = true

theorem rank_ok {candidates : List Candidate} {viewer : Viewer} {limit : Int}
    {result : List (Recommendation K)} :
    rank exp2 casefold candidates viewer limit = .ok result ↔
      Accepted candidates viewer limit ∧
        result = pick key note limit.toNat (fun _ => 0)
          (candidates.map (recommend exp2 casefold viewer (viewer.now.getD 0))) := by
  have ids : (candidates.map Candidate.id).dedup.length = candidates.length ↔
      (candidates.map Candidate.id).Nodup := by
    rw [← dedup_length, List.length_map]
  simp only [rank, Program.except_bind_ok, Program.ensure_ok, exists_const, mapM_raw,
    Program.except_pure, Except.ok.injEq, ids]
  cases now : viewer.now with
  | none =>
      simp only [aware, reduceCtorEq, false_and, exists_false, and_false, false_iff, not_and]
      intro accepted
      have here := accepted.now
      rw [now] at here
      cases here
  | some now' =>
      simp only [aware, Except.ok.injEq, Option.getD_some]
      constructor
      · rintro ⟨inLimit, _, rfl, few, distinct, pending, listed, rfl⟩
        split at listed
        · rename_i all
          cases listed
          exact ⟨⟨inLimit, by rw [now]; rfl, few, distinct, all⟩, rfl⟩
        · cases listed
      · rintro ⟨accepted, rfl⟩
        exact ⟨accepted.limit, now', rfl, accepted.few, accepted.distinct, _,
          if_pos accepted.aware, rfl⟩

theorem told {candidates : List Candidate} (distinct : (candidates.map Candidate.id).Nodup)
    (viewer : Viewer) (now : Rat) :
    Told key (candidates.map (recommend exp2 casefold viewer now)) := by
  intro counts left inLeft right inRight same
  obtain ⟨first, listed, rfl⟩ := List.mem_map.mp inLeft
  obtain ⟨second, also, rfl⟩ := List.mem_map.mp inRight
  have ids : first.id = second.id := congrArg (fun pair => (ofLex pair).2) same
  rw [List.inj_on_of_nodup_map distinct listed also ids]

/-! The law -/

theorem rank_perm {candidates others : List Candidate} (same : candidates.Perm others)
    (viewer : Viewer) (limit : Int) :
    rank exp2 casefold others viewer limit = rank exp2 casefold candidates viewer limit := by
  have ids := same.map Candidate.id
  have all : (∀ item ∈ others, item.createdAt.isSome = true) ↔
      ∀ item ∈ candidates, item.createdAt.isSome = true := by
    simp only [same.mem_iff]
  have sizes : (others.map Candidate.id).dedup.length =
      (candidates.map Candidate.id).dedup.length := ids.dedup.length_eq.symm
  simp only [rank, same.length_eq, sizes, mapM_raw, all]
  by_cases distinct : (candidates.map Candidate.id).Nodup
  · have picks (now : Rat) :
        pick key note limit.toNat (fun _ => 0)
            (others.map (recommend exp2 casefold viewer now)) =
          pick key note limit.toNat (fun _ => 0)
            (candidates.map (recommend exp2 casefold viewer now)) :=
      (pick_perm (told distinct viewer now) (same.map _)).symm
    split
    · simp only [Program.except_ok_bind, picks]
    · rfl
  · -- a repeated id is refused before anything is ranked
    have repeated : (candidates.map Candidate.id).dedup.length ≠ others.length := by
      rw [← same.length_eq, ← List.length_map Candidate.id, Ne, dedup_length]
      exact distinct
    simp only [Program.ensure, repeated, if_false, Program.except_error_bind]

/-- Among the requests that are not refused, the ranking does not depend on the order of the
candidates, has no duplicate and nothing else than candidates, is as long as the limit and
the candidates allow, and a higher limit only adds to its end. -/
theorem ranking_law (exp2 : Rat → K) (casefold : String → String)
    (candidates : List Candidate) (viewer : Viewer) (limit : Int) :
    ((∃ result, rank exp2 casefold candidates viewer limit = .ok result) ↔
      Accepted candidates viewer limit) ∧
    (∀ others, candidates.Perm others →
      rank exp2 casefold others viewer limit = rank exp2 casefold candidates viewer limit) ∧
    ∀ result, rank exp2 casefold candidates viewer limit = .ok result →
      (result.map Recommendation.candidate).Nodup ∧
      (∀ item ∈ result, item.candidate ∈ candidates) ∧
      result.length = min limit.toNat candidates.length ∧
      ∀ longer, rank exp2 casefold candidates viewer (limit + 1) = .ok longer →
        result <+: longer := by
  refine ⟨?_, fun others same => rank_perm same viewer limit, ?_⟩
  · constructor
    · rintro ⟨result, done⟩
      exact (rank_ok.mp done).1
    · intro accepted
      exact ⟨_, rank_ok.mpr ⟨accepted, rfl⟩⟩
  · intro result done
    obtain ⟨accepted, rfl⟩ := rank_ok.mp done
    have picks := pick_subperm key note limit.toNat (fun _ => 0)
      (candidates.map (recommend exp2 casefold viewer (viewer.now.getD 0)))
    have listed : ((candidates.map (recommend exp2 casefold viewer (viewer.now.getD 0))).map
        Recommendation.candidate) = candidates := by
      rw [List.map_map]
      exact List.map_id' candidates
    refine ⟨?_, ?_, ?_, ?_⟩
    · have once : candidates.Nodup := accepted.distinct.of_map _
      obtain ⟨middle, same, part⟩ := picks
      have inside := part.map Recommendation.candidate
      rw [listed] at inside
      exact (same.map Recommendation.candidate).nodup_iff.mp (once.sublist inside)
    · intro item member
      obtain ⟨candidate, inside, rfl⟩ := List.mem_map.mp (picks.subset member)
      exact inside
    · rw [pick_length, List.length_map]
    · intro longer more
      obtain ⟨-, rfl⟩ := rank_ok.mp more
      have next : (limit + 1).toNat = limit.toNat + 1 := by
        have := accepted.limit
        omega
      rw [next]
      exact pick_prefix key note limit.toNat _ _

end MsgServer.Ranker
