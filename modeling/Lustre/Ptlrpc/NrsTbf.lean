import Mathlib.Data.UInt
import Lustre.Library.Run
import Lustre.Library.Word

/-!
# Token buckets of the TBF request policy

The token bucket filter of the request scheduler keeps one bucket per client
(`struct nrs_tbf_client`): `tc_depth` tokens at most, one token more every
`NSEC_PER_SEC / tc_rpc_rate` nanoseconds, and the time of the last update in
`tc_check_time`.  `nrs_tbf_req_get` takes the client at the root of the binary
heap and either dispatches its first request, spending a token, or starts
throttling with a timer at `tc_check_time + tc_nsecs`.

The model embeds the non-peek path with the source's machine integers: the
fields are `__u64`, the token count in the function is a `long`, and the C
conversions between the two (`long += __u64`, `long > __u64`) go through
`unsigned long`.  Tokens are counted as `(passed * tc_rpc_rate) / NSEC_PER_SEC`
with the product formed in 64 bits.

`nrsTbfReqGet_eq_tokenBucketGet` says that the function is the exact token
bucket `tokenBucketGet` as long as that product does not wrap, and
`Within` (at most `tc_depth` tokens) holds on every client that a run of calls
reaches.  When the product wraps, a client that has waited long enough is
throttled with all of its tokens due (`nrsTbfReqGet_throttles_after_long_idle`).
-/

namespace Lustre
namespace NrsTbf

/-- `NSEC_PER_SEC`. -/
def nsecPerSec : UInt64 := 1000000000

/-- The rate fields of `struct nrs_tbf_rule`. -/
structure NrsTbfRule where
  /-- `tr_rpc_rate`: requests per second. -/
  trRpcRate : UInt64
  /-- `tr_nsecs`: nanoseconds per token. -/
  trNsecs : UInt64
  /-- `tr_depth`: the size of the bucket. -/
  trDepth : UInt64
  deriving DecidableEq, Repr

/-- The token-bucket fields of `struct nrs_tbf_client`. -/
structure NrsTbfClient where
  /-- `tc_rpc_rate`. -/
  tcRpcRate : UInt64
  /-- `tc_nsecs`. -/
  tcNsecs : UInt64
  /-- `tc_ntoken`: the tokens left at `tc_check_time`. -/
  tcNtoken : UInt64
  /-- `tc_depth`. -/
  tcDepth : UInt64
  /-- `tc_check_time`: when the tokens were last counted, in nanoseconds. -/
  tcCheckTime : UInt64
  deriving DecidableEq, Repr

/-- `nrs_tbf_cli_reset_value(head, cli)` at time `now`: a full bucket. -/
def nrsTbfCliResetValue (rule : NrsTbfRule) (now : UInt64) : NrsTbfClient where
  tcRpcRate := rule.trRpcRate
  tcNsecs := rule.trNsecs
  tcDepth := rule.trDepth
  tcNtoken := rule.trDepth
  tcCheckTime := now

/-- What one call of `nrs_tbf_req_get` does with the client at the heap root. -/
inductive TbfReqGet where
  /-- `NULL`: the policy is throttling already. -/
  | throttled
  /-- `peek`: the first request of the client, and nothing changes. -/
  | peeked
  /-- A request is dispatched and the client's bucket is updated. -/
  | dispatched (cli : NrsTbfClient)
  /-- No token: `nrs_throttling` is set and the timer armed at `th_deadline`. -/
  | throttle (deadline : UInt64)
  deriving DecidableEq, Repr

/-- `nrs_tbf_req_get(policy, peek, force)` on the client `cli` at the root of
the heap, at time `now`; `none` is the `LASSERT(now >= cli->tc_check_time)`. -/
def nrsTbfReqGet (peek nrsThrottling : Bool) (cli : NrsTbfClient) (now : UInt64) : Option TbfReqGet :=
  if !peek && nrsThrottling then some .throttled
  else if peek then some .peeked
  else
    let deadline := cli.tcCheckTime + cli.tcNsecs
    if now < cli.tcCheckTime then none
    else
      let passed := now - cli.tcCheckTime
      let ntoken : Int64 := ((passed * cli.tcRpcRate) / nsecPerSec).toInt64
      -- `ntoken += cli->tc_ntoken` adds in `unsigned long`
      let ntoken : Int64 := (ntoken.toUInt64 + cli.tcNtoken).toInt64
      -- `ntoken > cli->tc_depth` compares in `unsigned long`
      let ntoken : Int64 := if ntoken.toUInt64 > cli.tcDepth then cli.tcDepth.toInt64 else ntoken
      if ntoken > 0 then
        some (.dispatched { cli with tcNtoken := (ntoken - 1).toUInt64, tcCheckTime := now })
      else some (.throttle deadline)

/-! ## The token count as a word -/

/-- The token count of `nrs_tbf_req_get` after the cap at `tc_depth`, as the
bits of the `long`. -/
def cappedTokens (cli : NrsTbfClient) (now : UInt64) : UInt64 :=
  let ntoken := (now - cli.tcCheckTime) * cli.tcRpcRate / nsecPerSec + cli.tcNtoken
  if ntoken > cli.tcDepth then cli.tcDepth else ntoken

/-- The non-peek, non-throttled call decides on `cappedTokens` read as a
signed number. -/
theorem nrsTbfReqGet_eq {cli : NrsTbfClient} {now : UInt64} (later : cli.tcCheckTime ≤ now) :
    nrsTbfReqGet false false cli now =
      some (if 0 < (cappedTokens cli now).toInt64 then
          .dispatched { cli with tcNtoken := cappedTokens cli now - 1, tcCheckTime := now }
        else .throttle (cli.tcCheckTime + cli.tcNsecs)) := by
  have notBefore : ¬ now < cli.tcCheckTime := UInt64.not_lt.2 later
  have capped : (if ((now - cli.tcCheckTime) * cli.tcRpcRate / nsecPerSec + cli.tcNtoken) > cli.tcDepth
      then cli.tcDepth.toInt64 else ((now - cli.tcCheckTime) * cli.tcRpcRate / nsecPerSec + cli.tcNtoken).toInt64)
      = (cappedTokens cli now).toInt64 := by
    rw [cappedTokens]
    split <;> rfl
  simp only [nrsTbfReqGet, Bool.not_false, Bool.and_false, Bool.false_eq_true, if_false, notBefore,
    UInt64.toUInt64_toInt64, capped]
  split
  · rw [Int64.toUInt64_sub, UInt64.toUInt64_toInt64]
    rfl
  · rfl

/-! ## The exact bucket -/

/-- The tokens a bucket holds at `now` in unbounded arithmetic: what it held at
`tc_check_time`, one more for every `1/tc_rpc_rate` second since, and at most
`tc_depth`. -/
def exactTokens (cli : NrsTbfClient) (now : Nat) : Nat :=
  min cli.tcDepth.toNat (cli.tcNtoken.toNat + (now - cli.tcCheckTime.toNat) * cli.tcRpcRate.toNat / 1000000000)

theorem exactTokens_eq (cli : NrsTbfClient) (now : Nat) :
    exactTokens cli now =
      min cli.tcDepth.toNat (cli.tcNtoken.toNat + (now - cli.tcCheckTime.toNat) * cli.tcRpcRate.toNat / 1000000000) :=
  rfl

/-- The token bucket the policy implements: dispatch when a token is there,
spending it, or throttle until `tc_check_time + tc_nsecs`. -/
def tokenBucketGet (cli : NrsTbfClient) (now : UInt64) : TbfReqGet :=
  if 1 ≤ exactTokens cli now.toNat then
    .dispatched { cli with tcNtoken := UInt64.ofNat (exactTokens cli now.toNat - 1), tcCheckTime := now }
  else .throttle (cli.tcCheckTime + cli.tcNsecs)

/-- A bucket holds at most `tc_depth` tokens, and `tc_depth` is a positive
`long`. -/
structure Within (cli : NrsTbfClient) : Prop where
  depthPositive : 1 ≤ cli.tcDepth.toNat
  depthSmall : cli.tcDepth.toNat < 2 ^ 63
  tokens : cli.tcNtoken.toNat ≤ cli.tcDepth.toNat

/-- The product `passed * tc_rpc_rate` fits in 64 bits. -/
def Fits (cli : NrsTbfClient) (now : UInt64) : Prop :=
  (now - cli.tcCheckTime).toNat * cli.tcRpcRate.toNat < 2 ^ 64

/-- Without a wrap of the product, the capped count is the exact one. -/
theorem toNat_cappedTokens {cli : NrsTbfClient} {now : UInt64} (within : Within cli)
    (later : cli.tcCheckTime ≤ now) (fits : Fits cli now) :
    (cappedTokens cli now).toNat = exactTokens cli now.toNat := by
  have passed : (now - cli.tcCheckTime).toNat = now.toNat - cli.tcCheckTime.toNat :=
    UInt64.toNat_sub_of_le _ _ later
  have earned : ((now - cli.tcCheckTime) * cli.tcRpcRate / nsecPerSec).toNat =
      (now.toNat - cli.tcCheckTime.toNat) * cli.tcRpcRate.toNat / 1000000000 := by
    rw [UInt64.toNat_div, UInt64.toNat_mul_of_lt fits, passed]
    rfl
  have earnedSmall : (now.toNat - cli.tcCheckTime.toNat) * cli.tcRpcRate.toNat / 1000000000 < 2 ^ 63 := by
    rw [← passed]
    exact Nat.div_lt_of_lt_mul (by unfold Fits at fits; omega)
  have sum : ((now - cli.tcCheckTime) * cli.tcRpcRate / nsecPerSec + cli.tcNtoken).toNat =
      cli.tcNtoken.toNat + (now.toNat - cli.tcCheckTime.toNat) * cli.tcRpcRate.toNat / 1000000000 := by
    rw [UInt64.toNat_add_of_lt (by rw [earned]; have := within.depthSmall; have := within.tokens; omega), earned]
    omega
  rw [cappedTokens, exactTokens_eq]
  split
  · next above =>
      rw [gt_iff_lt, UInt64.lt_iff_toNat_lt, sum] at above
      omega
  · next notOver =>
      rw [gt_iff_lt, UInt64.lt_iff_toNat_lt, sum] at notOver
      rw [sum]
      omega

/-- A word below `2^63` is a positive `long` exactly when it is not zero. -/
theorem zero_lt_toInt64_iff {w : UInt64} (small : w.toNat < 2 ^ 63) : 0 < w.toInt64 ↔ 0 < w.toNat := by
  have zero : (0 : Int64) = (0 : UInt64).toInt64 := rfl
  rw [zero, UInt64.toInt64_lt_toInt64_iff (by simp) small]
  rfl

/-- Without a wrap of `passed * tc_rpc_rate`, a call is the exact token
bucket: it dispatches exactly when the bucket holds a token at `now`, and then
leaves one token fewer; otherwise it throttles until `tc_check_time + tc_nsecs`. -/
theorem nrsTbfReqGet_eq_tokenBucketGet {cli : NrsTbfClient} {now : UInt64} (within : Within cli)
    (later : cli.tcCheckTime ≤ now) (fits : Fits cli now) :
    nrsTbfReqGet false false cli now = some (tokenBucketGet cli now) := by
  have exact := toNat_cappedTokens within later fits
  have capSmall : (cappedTokens cli now).toNat < 2 ^ 63 := by
    have := within.depthSmall
    rw [exact, exactTokens_eq]
    omega
  rw [nrsTbfReqGet_eq later, tokenBucketGet]
  by_cases token : 1 ≤ exactTokens cli now.toNat
  · rw [if_pos ((zero_lt_toInt64_iff capSmall).2 (by omega)), if_pos token]
    congr 3
    apply UInt64.toNat.inj
    rw [UInt64.toNat_sub_of_le _ _ (by rw [UInt64.le_iff_toNat_le, exact]; simpa using token), exact,
      UInt64.toNat_ofNat', Nat.mod_eq_of_lt (by omega)]
    rfl
  · have empty : ¬ 0 < (cappedTokens cli now).toInt64 := fun positive => by
      have := (zero_lt_toInt64_iff capSmall).1 positive
      omega
    rw [if_neg empty, if_neg token]

/-! ## Runs of calls -/

/-- One non-peek call on a client whose policy is not throttling: the client
as the call leaves it. -/
def tbfCall (cli : NrsTbfClient) (now : UInt64) : NrsTbfClient :=
  match nrsTbfReqGet false false cli now with
  | some (.dispatched updated) => updated
  | _ => cli

/-- The calls the claim allows: at or after `tc_check_time`, with a product
that does not wrap. -/
def CallAllowed (cli : NrsTbfClient) (now : UInt64) : Prop :=
  cli.tcCheckTime ≤ now ∧ Fits cli now

/-- A call keeps the bucket's depth and rate, and its tokens within the depth. -/
theorem Within.tbfCall {cli : NrsTbfClient} {now : UInt64} (within : Within cli) (allowed : CallAllowed cli now) :
    Within (tbfCall cli now) := by
  rw [NrsTbf.tbfCall, nrsTbfReqGet_eq_tokenBucketGet within allowed.1 allowed.2, tokenBucketGet]
  by_cases token : 1 ≤ exactTokens cli now.toNat
  · rw [if_pos token]
    refine ⟨within.depthPositive, within.depthSmall, ?_⟩
    have small : exactTokens cli now.toNat - 1 < 2 ^ 64 := by
      have := within.depthSmall
      rw [exactTokens_eq]
      omega
    show (UInt64.ofNat (exactTokens cli now.toNat - 1)).toNat ≤ cli.tcDepth.toNat
    rw [UInt64.toNat_ofNat', Nat.mod_eq_of_lt small, exactTokens_eq]
    omega
  · rw [if_neg token]
    exact within

/-- A client of a rule at 32768 requests per second and the default depth 3,
reset at time 0, that has spent its three tokens at time 0. -/
def busyClient : NrsTbfClient :=
  Machine.run tbfCall (nrsTbfCliResetValue ⟨32768, 30517, 3⟩ 0) [0, 0, 0]

/-- After `2^49` nanoseconds (six and a half days) the bucket is full again,
but the product `2^49 * 32768 = 2^64` wraps to 0 and the call throttles the
client. -/
theorem nrsTbfReqGet_throttles_after_long_idle :
    busyClient.tcNtoken = 0 ∧ busyClient.tcCheckTime = 0 ∧
      exactTokens busyClient (2 ^ 49) = 3 ∧
      nrsTbfReqGet false false busyClient (2 ^ 49) = some (.throttle 30517) := by
  decide

end NrsTbf
end Lustre
