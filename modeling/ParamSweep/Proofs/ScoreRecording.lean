import Mathlib.Data.List.Basic
import ParamSweep.Search.Grid

/-! Recording of scores. All that a call does to a search is to record some scores within the number of points, so
the columns stay of one length and the points stay as they are. An evaluation scores each pending point once and in
order, and is never refused a score. -/

namespace ParamSweep.GridSearch

/-- What calls keep: the columns have one length, within the number of points, and a difference is that of the
two scores at its position. -/
structure Aligned (search : GridSearch) : Prop where
  truePositives : search.truePositives.length = search.recorded
  trueNegatives : search.trueNegatives.length = search.recorded
  differences : search.differences = List.zipWith (· - ·) search.truePositives search.trueNegatives
  bounded : search.recorded ≤ search.size

theorem aligned_new (label : Option String) (basis : List Axis) : (new label basis).Aligned :=
  ⟨rfl, rfl, rfl, Nat.zero_le _⟩

@[simp] theorem size_record (search : GridSearch) (score : Score) : (search.record score).size = search.size := rfl

@[simp] theorem recorded_record (search : GridSearch) (score : Score) :
    (search.record score).recorded = search.recorded + 1 := by
  simp [record, recorded]

theorem Aligned.record {search : GridSearch} (aligned : search.Aligned) (room : search.recorded < search.size)
    (score : Score) : (search.record score).Aligned where
  truePositives := by
    rw [recorded_record, ← aligned.truePositives]
    simp [GridSearch.record]
  trueNegatives := by
    rw [recorded_record, ← aligned.trueNegatives]
    simp [GridSearch.record]
  differences := by
    have same := aligned.truePositives.trans aligned.trueNegatives.symm
    simp only [GridSearch.record]
    rw [List.zipWith_append same, aligned.differences]
    rfl
  bounded := by
    rw [recorded_record]
    exact room

theorem Aligned.length_scores {search : GridSearch} (aligned : search.Aligned) :
    search.scores.length = search.recorded := by
  rw [scores, List.length_zipWith, aligned.truePositives, aligned.trueNegatives, Nat.min_self]

theorem Aligned.scores_record {search : GridSearch} (aligned : search.Aligned) (score : Score) :
    (search.record score).scores = search.scores ++ [score] := by
  have same := aligned.truePositives.trans aligned.trueNegatives.symm
  simp only [scores, GridSearch.record]
  rw [List.zipWith_append same]
  rfl

def recordAll (search : GridSearch) (added : List Score) : GridSearch := added.foldl record search

@[simp] theorem points_recordAll (search : GridSearch) (added : List Score) :
    (search.recordAll added).points = search.points := by
  induction added generalizing search with
  | nil => rfl
  | cons score rest ih => exact ih (search.record score)

@[simp] theorem size_recordAll (search : GridSearch) (added : List Score) :
    (search.recordAll added).size = search.size :=
  congrArg List.length (points_recordAll search added)

@[simp] theorem recorded_recordAll (search : GridSearch) (added : List Score) :
    (search.recordAll added).recorded = search.recorded + added.length := by
  induction added generalizing search with
  | nil => rfl
  | cons score rest ih =>
    have later := ih (search.record score)
    rw [recorded_record] at later
    rw [List.length_cons]
    exact later.trans (by omega)

theorem Aligned.recordAll {search : GridSearch} (aligned : search.Aligned) {added : List Score}
    (room : search.recorded + added.length ≤ search.size) : (search.recordAll added).Aligned := by
  induction added generalizing search with
  | nil => exact aligned
  | cons score rest ih =>
    rw [List.length_cons] at room
    refine ih (aligned.record (by omega) score) ?_
    rw [recorded_record, size_record]
    omega

theorem Aligned.scores_recordAll {search : GridSearch} (aligned : search.Aligned) {added : List Score}
    (room : search.recorded + added.length ≤ search.size) :
    (search.recordAll added).scores = search.scores ++ added := by
  induction added generalizing search with
  | nil => exact (List.append_nil _).symm
  | cons score rest ih =>
    rw [List.length_cons] at room
    have later := ih (aligned.record (by omega) score) (by rw [recorded_record, size_record]; omega)
    rw [aligned.scores_record, List.append_assoc] at later
    exact later

theorem recordAll_append (search : GridSearch) (first second : List Score) :
    search.recordAll (first ++ second) = (search.recordAll first).recordAll second := List.foldl_append

theorem length_pending (search : GridSearch) : search.pending.length = search.size - search.recorded :=
  List.length_drop

theorem append_of_room {search : GridSearch} (room : search.recorded < search.size) (score : Score) :
    search.append score = (.ok (), search.record score) := if_pos room

theorem append_of_full {search : GridSearch} (full : ¬search.recorded < search.size) (score : Score) :
    search.append score = (.error (.tooManyResults (search.recorded + 1) search.size), search) := if_neg full

theorem append_eq_ok_iff {search next : GridSearch} {score : Score} :
    search.append score = (.ok (), next) ↔ search.recorded < search.size ∧ next = search.record score := by
  by_cases room : search.recorded < search.size
  · simp [append_of_room room, room, eq_comm]
  · simp [append_of_full room, room]

/-- A refused score leaves the search as it was. -/
theorem append_eq_error_iff {search next : GridSearch} {score : Score} {error : Error} :
    search.append score = (.error error, next) ↔ ¬search.recorded < search.size ∧
      error = .tooManyResults (search.recorded + 1) search.size ∧ next = search := by
  by_cases room : search.recorded < search.size
  · simp [append_of_room room, room]
  · simp [append_of_full room, room, eq_comm]

section
variable {m : Type → Type} [Monad m] [LawfulMonad m]

/-- As long as there are points for the scores, none is refused. -/
theorem scoreInTurn_eq (scorer : Config → m Score) {points : List Config} {search : GridSearch}
    (room : search.recorded + points.length ≤ search.size) :
    scoreInTurn scorer points search = (fun added => (.ok (), search.recordAll added)) <$> points.mapM scorer := by
  induction points generalizing search with
  | nil => simp [scoreInTurn, recordAll]
  | cons point rest ih =>
    rw [List.length_cons] at room
    have accepted (score : Score) : search.append score = (.ok (), search.record score) :=
      append_of_room (by omega) score
    have later (score : Score) := @ih (search.record score) (by rw [recorded_record, size_record]; omega)
    simp only [scoreInTurn, accepted, later, List.mapM_cons, map_bind, bind_pure_comp]
    simp [recordAll]

/-- An evaluation records what the scorer answers to the pending points. -/
theorem evaluateM_eq (scorer : Config → m Score) {search : GridSearch} (bounded : search.recorded ≤ search.size) :
    search.evaluateM scorer = (fun added => (.ok (), search.recordAll added)) <$> search.pending.mapM scorer := by
  apply scoreInTurn_eq
  rw [length_pending]
  omega

end

section
variable {σ : Type}

/-- What a scorer answers to points one after another, and the state that it leaves. -/
def answers (scorer : Config → StateM σ Score) (points : List Config) (state : σ) : List Score × σ :=
  (points.mapM scorer).run state

theorem answers_nil (scorer : Config → StateM σ Score) (state : σ) : answers scorer [] state = ([], state) := rfl

theorem answers_cons (scorer : Config → StateM σ Score) (point : Config) (rest : List Config) (state : σ) :
    answers scorer (point :: rest) state =
      (((scorer point).run state).1 :: (answers scorer rest ((scorer point).run state).2).1,
        (answers scorer rest ((scorer point).run state).2).2) := by
  simp only [answers, List.mapM_cons]
  rfl

theorem length_answers (scorer : Config → StateM σ Score) (points : List Config) (state : σ) :
    (answers scorer points state).1.length = points.length := by
  induction points generalizing state with
  | nil => rfl
  | cons point rest ih => rw [answers_cons, List.length_cons, List.length_cons, ih]

/-- A scorer that also keeps a log of the points it is called with and its answers. -/
def logged (scorer : Config → StateM σ Score) (point : Config) : StateM (σ × List (Config × Score)) Score :=
  fun (state, log) =>
    let (score, after) := (scorer point).run state
    (score, (after, log ++ [(point, score)]))

theorem answers_logged (scorer : Config → StateM σ Score) (points : List Config) (state : σ)
    (log : List (Config × Score)) :
    answers (logged scorer) points (state, log) =
      ((answers scorer points state).1,
        ((answers scorer points state).2, log ++ points.zip (answers scorer points state).1)) := by
  induction points generalizing state log with
  | nil => simp [answers_nil]
  | cons point rest ih =>
    have called : (logged scorer point).run (state, log) =
        (((scorer point).run state).1,
          (((scorer point).run state).2, log ++ [(point, ((scorer point).run state).1)])) := rfl
    rw [answers_cons, answers_cons, called, ih, List.zip_cons_cons, List.append_assoc]
    rfl

theorem run_evaluateM (scorer : Config → StateM σ Score) {search : GridSearch}
    (bounded : search.recorded ≤ search.size) (state : σ) :
    (search.evaluateM scorer).run state =
      ((.ok (), search.recordAll (answers scorer search.pending state).1), (answers scorer search.pending state).2) := by
  rw [evaluateM_eq scorer bounded]
  rfl

/-- A call on a search. The scorers of a run may share a state. -/
inductive Call (σ : Type) where
  | append (score : Score)
  | evaluate (scorer : Config → StateM σ Score)

def Call.perform : Call σ → GridSearch → StateM σ (Except Error Unit × GridSearch)
  | .append score, search => return search.append score
  | .evaluate scorer, search => search.evaluateM scorer

/-- Each call goes on with the search that the one before it leaves, refused or not. -/
def run (calls : List (Call σ)) (search : GridSearch) : StateM σ GridSearch :=
  calls.foldlM (fun current call => Prod.snd <$> call.perform current) search

theorem run_cons (call : Call σ) (rest : List (Call σ)) (search : GridSearch) (state : σ) :
    (run (call :: rest) search).run state =
      (run rest ((call.perform search).run state).1.2).run ((call.perform search).run state).2 := rfl

/-- All that a call does to a search is to record scores for points that had none. -/
theorem Call.exists_recordAll (call : Call σ) {search : GridSearch} (bounded : search.recorded ≤ search.size)
    (state : σ) : ∃ added : List Score, ((call.perform search).run state).1.2 = search.recordAll added ∧
      search.recorded + added.length ≤ search.size := by
  cases call with
  | append score =>
    by_cases room : search.recorded < search.size
    · exact ⟨[score], congrArg Prod.snd (append_of_room room score), room⟩
    · exact ⟨[], congrArg Prod.snd (append_of_full room score), bounded⟩
  | evaluate scorer =>
    refine ⟨_, congrArg (·.1.2) (run_evaluateM scorer bounded state), ?_⟩
    rw [length_answers, length_pending]
    omega

theorem exists_recordAll_of_run (calls : List (Call σ)) {search : GridSearch}
    (bounded : search.recorded ≤ search.size) (state : σ) :
    ∃ added : List Score, ((run calls search).run state).1 = search.recordAll added ∧
      search.recorded + added.length ≤ search.size := by
  induction calls generalizing search state with
  | nil => exact ⟨[], rfl, bounded⟩
  | cons call rest ih =>
    obtain ⟨first, performed, room⟩ := call.exists_recordAll bounded state
    have kept : (search.recordAll first).recorded ≤ (search.recordAll first).size := by
      rw [recorded_recordAll, size_recordAll]
      exact room
    obtain ⟨second, ran, enough⟩ := ih kept ((call.perform search).run state).2
    rw [recorded_recordAll, size_recordAll] at enough
    refine ⟨first ++ second, ?_, ?_⟩
    · rw [run_cons, performed, ran, recordAll_append]
    · rw [List.length_append]
      omega

/-- The scores that are added belong to the points that had none. -/
theorem Aligned.zip_recordAll {search : GridSearch} (aligned : search.Aligned) {added : List Score}
    (room : search.recorded + added.length ≤ search.size) :
    search.points.zip (search.recordAll added).scores = search.points.zip search.scores ++ search.pending.zip added := by
  have cut : search.points = search.points.take search.recorded ++ search.pending := (List.take_append_drop _ _).symm
  have front : (search.points.take search.recorded).length = search.scores.length := by
    have bounded := aligned.bounded
    rw [List.length_take, aligned.length_scores]
    exact Nat.min_eq_left bounded
  rw [aligned.scores_recordAll room]
  calc search.points.zip (search.scores ++ added)
      = (search.points.take search.recorded).zip search.scores ++ search.pending.zip added := by
        conv_lhs => rw [cut]
        exact List.zip_append front
    _ = search.points.zip search.scores ++ search.pending.zip added := by
        congr 1
        conv_rhs => rw [cut, ← List.append_nil search.scores, List.zip_append front, List.zip_nil_right, List.append_nil]

/-- An evaluation asks for the score of each pending point once, in order, and leaves no point without one. -/
theorem Aligned.evaluate {search : GridSearch} (aligned : search.Aligned) (scorer : Config → StateM σ Score) (state : σ) :
    ∃ log next stop, log.map Prod.fst = search.points.drop search.recorded ∧
      (search.evaluateM (logged scorer)).run (state, []) = ((.ok (), next), (stop, log)) ∧
      (search.evaluateM scorer).run state = ((.ok (), next), stop) ∧
      next.points = search.points ∧ next.Aligned ∧
      next.points.zip next.scores = search.points.zip search.scores ++ log ∧
      next.recorded = next.size := by
  have bounded := aligned.bounded
  let added := (answers scorer search.pending state).1
  have length : added.length = search.size - search.recorded := by
    rw [length_answers, length_pending]
  have room : search.recorded + added.length ≤ search.size := by omega
  refine ⟨search.pending.zip added, search.recordAll added, (answers scorer search.pending state).2, ?_, ?_, ?_,
    points_recordAll search added, aligned.recordAll room, ?_, ?_⟩
  · exact List.map_fst_zip (Nat.le_of_eq ((length_pending search).trans length.symm))
  · rw [run_evaluateM _ bounded, answers_logged]
    rfl
  · exact run_evaluateM scorer bounded state
  · rw [points_recordAll]
    exact aligned.zip_recordAll room
  · rw [recorded_recordAll, size_recordAll]
    omega

theorem evaluateM_of_full {search : GridSearch} (full : search.recorded = search.size)
    (scorer : Config → StateM σ Score) (state : σ) :
    (search.evaluateM (logged scorer)).run (state, []) = ((.ok (), search), (state, [])) := by
  have none : search.pending = [] := List.drop_eq_nil_of_le (Nat.le_of_eq full.symm)
  rw [run_evaluateM _ (Nat.le_of_eq full), none]
  rfl

/-- Whatever was called before, the columns are aligned over the points of the basis, a score is refused exactly if
all points have theirs, which leaves the search as it was, and an evaluation scores the points without one. -/
theorem run_new (label : Option String) (basis : List Axis) (calls : List (Call σ)) (start : σ) :
    let search := ((run calls (new label basis)).run start).1
    search.points = Config.combinationsOf basis ∧ search.Aligned ∧
      (∀ score, (∃ next, search.append score = (.ok (), next)) ↔ search.recorded < search.size) ∧
      (∀ score next, search.append score = (.ok (), next) →
        next.points = search.points ∧ next.Aligned ∧ next.scores = search.scores ++ [score]) ∧
      (∀ score error next, search.append score = (.error error, next) →
        error = .tooManyResults (search.recorded + 1) search.size ∧ next = search ∧
          ∀ (later : List (Call σ)) (state : σ),
            (run (.append score :: later) search).run state = (run later search).run state) ∧
      ∀ (scorer : Config → StateM σ Score) (state : σ), ∃ log next stop,
        log.map Prod.fst = search.points.drop search.recorded ∧
          (search.evaluateM (logged scorer)).run (state, []) = ((.ok (), next), (stop, log)) ∧
          (search.evaluateM scorer).run state = ((.ok (), next), stop) ∧
          next.points = search.points ∧ next.Aligned ∧
          next.points.zip next.scores = search.points.zip search.scores ++ log ∧
          next.recorded = next.size ∧
          ∀ (again : Config → StateM σ Score) (later : σ),
            (next.evaluateM (logged again)).run (later, []) = ((.ok (), next), (later, [])) := by
  intro search
  obtain ⟨added, ran, room⟩ := exists_recordAll_of_run calls (aligned_new label basis).bounded start
  have points : search.points = Config.combinationsOf basis :=
    (congrArg GridSearch.points ran).trans (points_recordAll _ added)
  have aligned : search.Aligned := (congrArg Aligned ran).mpr ((aligned_new label basis).recordAll room)
  refine ⟨points, aligned, ?_, ?_, ?_, ?_⟩
  · intro score
    constructor
    · rintro ⟨next, accepted⟩
      exact (append_eq_ok_iff.mp accepted).1
    · intro free
      exact ⟨_, append_of_room free score⟩
  · intro score next accepted
    obtain ⟨free, rfl⟩ := append_eq_ok_iff.mp accepted
    exact ⟨rfl, aligned.record free score, aligned.scores_record score⟩
  · intro score error next refused
    obtain ⟨-, why, rfl⟩ := append_eq_error_iff.mp refused
    refine ⟨why, rfl, fun later state => ?_⟩
    have kept : (((Call.append score).perform search).run state).1.2 = search := congrArg Prod.snd refused
    rw [run_cons, kept]
    rfl
  · intro scorer state
    obtain ⟨log, next, stop, asked, traced, ran, kept, after, paired, full⟩ := aligned.evaluate scorer state
    exact ⟨log, next, stop, asked, traced, ran, kept, after, paired, full,
      fun again later => evaluateM_of_full full again later⟩

end

end ParamSweep.GridSearch
