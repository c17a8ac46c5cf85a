import Sncpp.CoDesk
import Sncpp.StoreSlice
/-!
# StoreSq — the queue of a key, looked up and dropped (`getSq`, `delSq`)

The service keeps its queues in the table `sq`: `getSq` makes the missing ones, and `logout`, `saveMail` and
`onTimerClearSq` drop them again, whether they are in use or not.  `sqSys` is the service on a desk (`Co.Desk`), so a
key may have had several queues.
-/
namespace Sncpp
namespace Store

open Co (Desk World Sys)

variable {κ V : Type} [LinearOrder κ]

inductive SqOp (κ V : Type) where
  | op (o : Op κ V)
  | logout (uid : Nat) (ks : List κ) (account : κ) (newKid : Nat)
  | saveMail
  | clearSq

def SqOp.prog (conf : Conf κ V) : SqOp κ V → Co κ V Unit
  | .op o => o.prog conf
  | .logout uid ks account newKid => Store.logout conf uid ks account newKid
  | .saveMail => Store.saveMail conf
  | .clearSq => onTimerClearSq

def keySys (conf : Conf κ V) : Sys (Svc κ V) κ (Req κ V) (Reply V) (SqOp κ V) Nat :=
  ⟨SqOp.prog conf, fun _ _ => true, fun n s => { s with now := s.now + n }⟩

def sqSys (conf : Conf κ V) : Sys (Desk (Svc κ V) κ) (κ × Nat) (Req κ V) (Reply V) (SqOp κ V) Nat := (keySys conf).desk

/-! ## At most one coroutine inside the queues of a key -/

/-- Coroutine `c` runs, or waits for an answer, inside a queue that `getSq` returned for `k`. -/
def Inside (w : World (Desk (Svc κ V) κ) (κ × Nat) (Req κ V) (Reply V)) (k : κ) (c : Nat) : Prop :=
  ∃ n, (w.sq (k, n)).current = some c ∧ 0 < (w.sq (k, n)).ref

/-- **As long as queues are dropped only when idle, at most one coroutine is inside the queues of a key**, after any run
of requests, timers, logouts and mail saves. -/
theorem inside_unique_of_run (conf : Conf κ V) (s : Svc κ V) (es : List (Co.Event (SqOp κ V) (Reply V) Nat))
    {w : World (Desk (Svc κ V) κ) (κ × Nat) (Req κ V) (Reply V)}
    (hrun : (sqSys conf).run (.init (.new s)) es = some w) (hclean : w.clean = true) {k : κ} {c c' : Nat}
    (h : Inside w k c) (h' : Inside w k c') : c = c' := by
  obtain ⟨n, hc, -⟩ := h
  obtain ⟨n', hc', -⟩ := h'
  exact Co.holder_unique_of_run s es hrun hclean hc hc'

theorem inside_unique_plain : ∃ es w, (sqSys (.plain .mongodb)).run (.init (.new (.start (fun _ => none) fun _ => none)))
    es = some w ∧ w.clean = true ∧ Inside w 0 2 ∧ ∀ c, Inside w 0 c → c = 2 := by
  -- the first update ends, its queue is dropped, and two more arrive
  obtain ⟨w, hrun, hc, hcur, href⟩ : ∃ w ∈ (sqSys (.plain .mongodb)).run (.init (.new (.start (fun _ => none) fun _ => none)))
      [.start (.op (.update 0 1)), .reply 0 (.bool true), .reply 0 (.bool true), .env 1000, .start .clearSq,
        .start (.op (.update 0 2)), .start (.op (.update 0 3))],
      w.clean = true ∧ (w.sq (0, 1)).current = some 2 ∧ 0 < (w.sq (0, 1)).ref := by
    decide +kernel
  have hin : Inside w 0 2 := ⟨1, hcur, href⟩
  exact ⟨_, w, hrun, hc, hin, fun c h => inside_unique_of_run _ _ _ hrun hc h hin⟩

/-- **A queue dropped while its holder waits lets a second coroutine in**: `onTimerClearSq` drops the queue of an update
that still waits for redis, and the next update gets a new queue. -/
theorem dropped_queue_admits : ∃ es w,
    (sqSys (.plain .mongodb)).run (.init (.new (.start (fun _ => none) fun _ => none))) es = some w ∧
      Inside w 0 0 ∧ Inside w 0 2 := by
  obtain ⟨w, hrun, h1, h2, h3, h4⟩ : ∃ w ∈ (sqSys (.plain .mongodb)).run (.init (.new (.start (fun _ => none) fun _ => none)))
      [.start (.op (.update 0 1)), .env 1000, .start .clearSq, .start (.op (.update 0 2))],
      (w.sq (0, 0)).current = some 0 ∧ 0 < (w.sq (0, 0)).ref ∧ (w.sq (0, 1)).current = some 2 ∧ 0 < (w.sq (0, 1)).ref := by
    decide +kernel
  exact ⟨_, w, hrun, ⟨0, h1, h2⟩, ⟨1, h3, h4⟩⟩

end Store
end Sncpp
