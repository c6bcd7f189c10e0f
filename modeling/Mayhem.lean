import Mayhem.ParamOrder
import Mayhem.Signing
import Mayhem.Deposit.Reversed
import Mayhem.Gateway.Failover
import Mayhem.Gateway.Heartbeats
import Mayhem.Relay.Heartbeats
import Mayhem.Gateway.Reasoning
import Mayhem.Paygate.Events
import Mayhem.Provider.Output
import Mayhem.Challenge
import Mayhem.Pool.Governance
import Mayhem.Payout.Attempts
import Mayhem.Payout.Forward
import Mayhem.Payout.Consumed
import Mayhem.Roller.Split
import Mayhem.Roller.Distribution
import Mayhem.Listing
import Mayhem.Resubmission
import Mayhem.EvidenceRoot
import Mayhem.Pool.Claims
