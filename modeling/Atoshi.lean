import Atoshi.Energy.Backing
import Atoshi.Energy.Conservation
import Atoshi.App.Burn
import Atoshi.Energy.Snapshot
import Atoshi.App.SelfStake
import Atoshi.Tokenomics.Emission
import Atoshi.Atox.Sweep
import Atoshi.Bridge.Project
import Atoshi.Bridge.Conservation
import Atoshi.Tokenomics.Claims
import Atoshi.Statedb.Storage
import Atoshi.Energy.Pace
import Atoshi.Energy.Retry
import Atoshi.Energy.Lifetime
import Atoshi.Oracle.Restart
import Atoshi.Bridge.Restart
import Atoshi.Tokenomics.Sampling
import Atoshi.Vesting.Custody
import Atoshi.Energy.Unused
import Atoshi.Atox.Timing
import Atoshi.Atox.Precompile
import Atoshi.Erc20.Logs
import Atoshi.App.Authz
import Atoshi.Tokenomics.Tranche
import Atoshi.Evm.Limit
import Atoshi.Evm.Fees
import Atoshi.Energy.StockFee
import Atoshi.Oracle.Twap
import Atoshi.Vesting.Grants
import Atoshi.Tokenomics.Halting
import Atoshi.Lib.Encoded
import Atoshi.Energy.Keys
