import Mathlib.Logic.Function.Basic
import Mathlib.Data.List.Count
import BlizzardMock.Data.Delivery
import BlizzardMock.MockHub.LeaseLaws

namespace BlizzardMock.MockHub

open Method Delivery

def TranscriptLane.acknowledged (lane : TranscriptLane) : List Int :=
  lane.applied ++ lane.alreadyApplied ++ lane.capped ++ lane.refused

namespace Books

variable (t r : String) (record : TranscriptRecord) (books : Books) (lane : TranscriptLane)

theorem takeRecord_mark :
    (books.takeRecord t r record lane).2.mark = max lane.mark record.seq := by
  simp only [takeRecord]
  split
  case isTrue => rfl
  case isFalse =>
    split
    case isTrue seen =>
      rw [max_eq_left seen]
      split <;> rfl
    case isFalse =>
      split
      case isTrue => rfl
      case isFalse => split <;> rfl

theorem takeRecord_replay (seen : record.seq ≤ lane.mark) :
    (books.takeRecord t r record lane).1 = books := by
  have idle : ¬ books.Stores t r record lane := fun stores => absurd stores.2.1 (not_lt.mpr seen)
  rw [takeRecord_books, if_neg idle]

theorem takeRecord_of_mark : (books.takeRecord t r record { mark := lane.mark }).1 =
    (books.takeRecord t r record lane).1 := by
  rw [takeRecord_books, takeRecord_books]
  rfl

theorem takeRecord_marks (marks : Dict String Int) :
    (Books.takeRecord { books with transcriptHighWater := marks } t r record lane).1 =
      { (books.takeRecord t r record lane).1 with transcriptHighWater := marks } := by
  rw [takeRecord_books, takeRecord_books]
  by_cases stores : books.Stores t r record lane
  · have stores' : Books.Stores { books with transcriptHighWater := marks } t r record lane :=
      stores
    rw [if_pos stores, if_pos stores', store, store]
    by_cases past : books.OverCap t record
    · have past' : Books.OverCap { books with transcriptHighWater := marks } t record := past
      rw [if_pos past, if_pos past']
      rfl
    · have under : ¬ Books.OverCap { books with transcriptHighWater := marks } t record := past
      rw [if_neg past, if_neg under]
      rfl
  · have idle : ¬ Books.Stores { books with transcriptHighWater := marks } t r record lane := stores
    rw [if_neg stores, if_neg idle]

theorem takeRecords_highWater (records : List TranscriptRecord) (push : Books × TranscriptLane) :
    (takeRecords t r records push).1.transcriptHighWater = push.1.transcriptHighWater := by
  induction records generalizing push with
  | nil => rfl
  | cons record rest ih =>
    simp only [takeRecords, ih, takeRecord_books]
    split
    case isTrue =>
      simp only [store]
      split <;> rfl
    case isFalse => rfl

theorem takeRecord_acknowledged (n : Int) :
    (books.takeRecord t r record lane).2.acknowledged.count n =
      lane.acknowledged.count n + [record.seq].count n := by
  simp only [takeRecord]
  split
  case isTrue => simp only [TranscriptLane.acknowledged, List.count_append]; omega
  case isFalse =>
    split
    case isTrue => split <;> simp only [TranscriptLane.acknowledged, List.count_append] <;> omega
    case isFalse =>
      split
      case isTrue => simp only [TranscriptLane.acknowledged, List.count_append]; omega
      case isFalse => split <;> simp only [TranscriptLane.acknowledged, List.count_append] <;> omega

theorem takeRecords_acknowledged (records : List TranscriptRecord) (push : Books × TranscriptLane)
    (n : Int) : (takeRecords t r records push).2.acknowledged.count n =
      push.2.acknowledged.count n + (records.map (·.seq)).count n := by
  induction records generalizing push with
  | nil => rfl
  | cons record rest ih =>
    simp only [takeRecords, ih, takeRecord_acknowledged, List.map_cons, List.count_cons,
      List.count_nil]
    omega

end Books

namespace MockHubService

def shown (hub : MockHubService) : MockHubService × (String → Int) :=
  ({ hub with transcriptHighWater := ∅ }, fun r => hub.transcriptHighWater.getD r 0)

def transcriptReceiver (t r : String) :
    Receiver (MockHubService × (String → Int)) TranscriptRecord where
  seq := TranscriptRecord.seq
  mark s := s.2 r
  take record s :=
    let push := s.1.takeRecord t r record { mark := s.2 r }
    ({ s.1 with toBooks := push.1 }, Function.update s.2 r push.2.mark)
  raises record s := by
    simp only [Function.update_self, Books.takeRecord_mark]
  replays record s seen := by
    simp only [Books.takeRecord_replay t r record s.1.toBooks { mark := s.2 r } seen,
      Books.takeRecord_mark, max_eq_left seen, Function.update_eq_self]

section

variable {t r : String}

theorem takeAll_eq (records : List TranscriptRecord) (books : Books) (lane : TranscriptLane)
    (hub : MockHubService) (marks : String → Int) :
    (transcriptReceiver t r).takeAll records
        ({ hub with toBooks := { books with transcriptHighWater := ∅ } },
          Function.update marks r lane.mark) =
      let push := Books.takeRecords t r records (books, lane)
      ({ hub with toBooks := { push.1 with transcriptHighWater := ∅ } },
        Function.update marks r push.2.mark) := by
  induction records generalizing books lane with
  | nil => rfl
  | cons record rest ih =>
    simp only [Receiver.takeAll_cons, Books.takeRecords]
    rw [← ih]
    congr 1
    simp only [transcriptReceiver, Function.update_self, Function.update_idem,
      Books.takeRecord_marks,
      Books.takeRecord_of_mark, Books.takeRecord_mark]

theorem shown_ingestTranscripts {hub : MockHubService} {row : RunnerRow}
    (known : hub.store.runners.get? r = some row) (records : List TranscriptRecord) :
    (Method.after (ingestTranscripts r records) hub).shown =
      (transcriptReceiver row.tenantId r).takeAll (sortedRecords records) hub.shown := by
  have taken := takeAll_eq (t := row.tenantId) (r := r) (sortedRecords records) hub.toBooks
    { mark := hub.transcriptHighWater.getD r 0 } hub (fun r => hub.transcriptHighWater.getD r 0)
  simp only [Function.update_eq_self] at taken
  rw [Method.after, run_ingestTranscripts known]
  apply Eq.trans _ taken.symm
  simp only [shown, Books.takeRecords_highWater]
  congr 1
  funext r'
  by_cases here : r' = r
  · rw [here, Dict.getD_set_self, Function.update_self]
  · rw [Dict.getD_set_of_ne here, Function.update_of_ne here]

theorem store_ingestTranscripts {hub : MockHubService} {row : RunnerRow}
    (known : hub.store.runners.get? r = some row) (records : List TranscriptRecord) :
    (Method.after (ingestTranscripts r records) hub).store = hub.store := by
  rw [Method.after, run_ingestTranscripts known]

theorem answer_ingestTranscripts {hub : MockHubService} {row : RunnerRow}
    (known : hub.store.runners.get? r = some row) (records : List TranscriptRecord) :
    answer (ingestTranscripts r records) hub =
      .ok ((hub.transcriptPush row.tenantId r records).2.ack r) := by
  rw [answer, run_ingestTranscripts known]

theorem transcriptPush_acknowledged (hub : MockHubService)
    (records : List TranscriptRecord) (n : Int) :
    (hub.transcriptPush t r records).2.acknowledged.count n = (records.map (·.seq)).count n := by
  rw [transcriptPush, Books.takeRecords_acknowledged]
  have same : ((sortedRecords records).map (·.seq)).Perm (records.map (·.seq)) :=
    (List.perm_insertionSort _ records).map _
  rw [same.count_eq]
  exact Nat.zero_add _

def pushes (r : String) (outbox : List TranscriptRecord) (slices : List Slice) : List Op :=
  slices.map fun slice => .ingestTranscripts r (slice.cut outbox)

def sees (answered : Except HubError TranscriptSegmentAck) (slice : Slice) (seen : Option Int) :
    Option Int :=
  match answered with
  | .ok ack => slice.sees ack.highWater seen
  | .error _ => seen

/-- Each slice a runner pushes starts no later than the first record above the last mark it saw. -/
def Ships [Platform] (r : String) (outbox : List TranscriptRecord) :
    List Slice → Option Int → MockHubService → Prop
  | [], _, _ => True
  | slice :: rest, seen, hub => slice.start ≤ firstAbove TranscriptRecord.seq outbox seen ∧
      Ships r outbox rest (sees (answer (ingestTranscripts r (slice.cut outbox)) hub) slice seen)
        (hub.next (.ingestTranscripts r (slice.cut outbox)))

end

section

variable [Platform] {r : String} {row : RunnerRow} {outbox : List TranscriptRecord}
  {hub : MockHubService}

omit [Platform] in
theorem sortedRecords_eq {records : List TranscriptRecord}
    (rising : records.Pairwise fun a b => a.seq < b.seq) : sortedRecords records = records :=
  (rising.imp fun h => le_of_lt h).insertionSort_eq

theorem shown_push (known : hub.store.runners.get? r = some row)
    {records : List TranscriptRecord} (rising : records.Pairwise fun a b => a.seq < b.seq) :
    (hub.next (.ingestTranscripts r records)).shown =
      (transcriptReceiver row.tenantId r).takeAll records hub.shown := by
  rw [← sortedRecords_eq rising, ← shown_ingestTranscripts known, sortedRecords_eq rising]
  rfl

theorem mark_push (known : hub.store.runners.get? r = some row) (records : List TranscriptRecord) :
    ((hub.transcriptPush row.tenantId r records).2.ack r).highWater =
      (hub.next (.ingestTranscripts r records)).shown.2 r := by
  change _ = (Method.after (ingestTranscripts r records) hub).shown.2 r
  rw [Method.after, run_ingestTranscripts known]
  exact (Dict.getD_set_self _ r _ 0).symm

theorem known_push (known : hub.store.runners.get? r = some row) (records : List TranscriptRecord) :
    (hub.next (.ingestTranscripts r records)).store.runners.get? r = some row := by
  have kept := store_ingestTranscripts known records
  rw [← known]
  exact congrArg (fun store : InMemoryHubState => store.runners.get? r) kept

theorem known_pushes (known : hub.store.runners.get? r = some row) (slices : List Slice) :
    (after (pushes r outbox slices) hub).store.runners.get? r = some row := by
  induction slices generalizing hub with
  | nil => exact known
  | cons slice rest ih => exact ih (known_push known _)

theorem shown_pushes (known : hub.store.runners.get? r = some row)
    (rising : outbox.Pairwise fun a b => a.seq < b.seq) (slices : List Slice) :
    (after (pushes r outbox slices) hub).shown =
      (transcriptReceiver row.tenantId r).deliver outbox slices hub.shown := by
  induction slices generalizing hub with
  | nil => rfl
  | cons slice rest ih =>
    rw [Receiver.deliver, ← shown_push known (rising.sublist (slice.cut_sublist outbox))]
    exact ih (known_push known _)

theorem ships_shown {slices : List Slice} {seen : Option Int}
    (ships : Ships r outbox slices seen hub)
    (known : hub.store.runners.get? r = some row)
    (rising : outbox.Pairwise fun a b => a.seq < b.seq) :
    (transcriptReceiver row.tenantId r).Ships outbox slices seen hub.shown := by
  induction slices generalizing seen hub with
  | nil => trivial
  | cons slice rest ih =>
    refine ⟨ships.1, ?_⟩
    rw [← shown_push known (rising.sublist (slice.cut_sublist outbox))]
    have continued := ih ships.2 (known_push known _)
    rw [answer_ingestTranscripts known] at continued
    simp only [sees, mark_push known] at continued
    exact continued

/-- Slices of an outbox pushed past lost acknowledgements leave the hub as one push of all they
reach, and each push acknowledges every record it carries once. -/
theorem delivered_once (known : hub.store.runners.get? r = some row)
    (rising : outbox.Pairwise fun a b => a.seq < b.seq) {slices : List Slice} {seen : Option Int}
    (genuine : ∀ mark ∈ seen, mark ≤ hub.transcriptHighWater.getD r 0)
    (ships : Ships r outbox slices seen hub) :
    (after (pushes r outbox slices) hub).shown =
        (hub.next (.ingestTranscripts r (outbox.take (reach slices)))).shown ∧
      ∀ earlier slice later, slices = earlier ++ slice :: later →
        ∃ ack, answer (ingestTranscripts r (slice.cut outbox))
          (after (pushes r outbox earlier) hub) =
            .ok ack ∧
          ∀ record ∈ slice.cut outbox, (ack.applied ++ ack.alreadyApplied ++ ack.capped ++
            ack.refused).count record.seq = 1 := by
  constructor
  · calc
      (after (pushes r outbox slices) hub).shown =
          (transcriptReceiver row.tenantId r).deliver outbox slices hub.shown :=
        shown_pushes known rising slices
      _ = (transcriptReceiver row.tenantId r).takeAll (outbox.take (reach slices)) hub.shown :=
        (transcriptReceiver row.tenantId r).deliver_eq (ships_shown ships known rising) genuine
      _ = (hub.next (.ingestTranscripts r (outbox.take (reach slices)))).shown :=
        (shown_push known (rising.sublist (List.take_sublist _ _))).symm
  · intro earlier slice later _
    refine ⟨_, answer_ingestTranscripts (known_pushes known earlier) _, ?_⟩
    intro record mem
    have counted := transcriptPush_acknowledged (t := row.tenantId) (r := r)
      (after (pushes r outbox earlier) hub) (slice.cut outbox) record.seq
    have distinct : ((slice.cut outbox).map (·.seq)).Nodup :=
      List.pairwise_map.mpr ((rising.sublist (slice.cut_sublist outbox)).imp fun h => ne_of_lt h)
    rw [List.count_eq_one_of_mem distinct (List.mem_map_of_mem mem)] at counted
    exact counted

end

end MockHubService

section

attribute [local instance] Platform.plain

open MockHubService

def outboxOfTwo : List TranscriptRecord := [shipped "s1", { shipped "s2" with seq := 2 }]

def oneRunner : MockHubService := after [addRunner "r1"] (fresh .still)

def ackLost : List Slice := [⟨0, 1, false⟩, ⟨0, 2, true⟩]

theorem delivered_once_ack_lost :
    (after (pushes "r1" outboxOfTwo ackLost) oneRunner).shown =
      (oneRunner.next (.ingestTranscripts "r1" outboxOfTwo)).shown := by
  have ships : Ships "r1" outboxOfTwo ackLost none oneRunner := ⟨by decide, by decide, trivial⟩
  have genuine : ∀ mark ∈ (none : Option Int), mark ≤ oneRunner.transcriptHighWater.getD "r1" 0 :=
    nofun
  cases known : oneRunner.store.runners.get? "r1" with
  | none => cases known
  | some row => exact (delivered_once known (by decide) genuine ships).1

end

end BlizzardMock.MockHub
